import BeetleMemory.Recall.Index
import BeetleMemory.Lib.Fallible
import BeetleMemory.Lib.Digests

/-! An index is the canonical form of a map from addresses to their latest entries: it depends on
the map and the revision only, not on the edits that led there, and its digest tells it apart from
every other index.
-/

namespace BeetleMemory.Recall

open Keyed
open Fallible (bind_eq_ok pure_eq_ok)
open Framing (Short frames_inj bigEndian_inj)
open Store (textBytes)

variable {sha256 : List UInt8 → String} {kind : RecallIndexKind}
variable {entries others : List RecallIndexAddress} {index other : RecallIndex kind}

/-! ## Addresses -/

theorem identityOf_inj {kind kind' : RecallIndexAddressKind} {ns ns' key key' : String}
    : identityOf kind ns key = identityOf kind' ns' key'
      ↔ kind = kind' ∧ ns = ns' ∧ key = key' := by
  have ranks : kind.rank = kind'.rank ↔ kind = kind' := by
    cases kind <;> cases kind' <;> simp [RecallIndexAddressKind.rank]
  simp [identityOf, ranks]

/-- The entries that an edit of an address leaves alone. -/
theorem differs_iff {entry : RecallIndexAddress} {kind : RecallIndexAddressKind}
    {ns key : String}
    : (entry.kind != kind || entry.ns != ns || entry.key != key) = true
      ↔ entry.identity ≠ identityOf kind ns key := by
  rw [RecallIndexAddress.identity, ne_eq, identityOf_inj]
  simp only [Bool.or_eq_true, bne_iff_ne]
  tauto

/-- Each entry at most once, in the order of their addresses. -/
def Ordered (entries : List RecallIndexAddress) : Prop :=
  entries.Pairwise fun a b => a.identity < b.identity

def AllValid (entries : List RecallIndexAddress) : Prop :=
  ∀ entry ∈ entries, entry.validate = .ok ()

/-- The loop accepts valid entries in order, all after the previous one. -/
theorem checkOrder_eq_ok {name : String} {previous : Option Identity} {done : Unit}
    : checkOrder name previous entries = .ok done
      ↔ AllValid entries ∧ Ordered entries
        ∧ ∀ before ∈ previous, ∀ entry ∈ entries, before < entry.identity := by
  induction entries generalizing previous with
  | nil => simp [checkOrder, AllValid, Ordered]
  | cons entry rest ih =>
      simp only [checkOrder, bind_eq_ok, Store.require_eq_ok, ih, AllValid, Ordered,
        List.forall_mem_cons, List.pairwise_cons]
      constructor
      · rintro ⟨_, valid, _, after, restValid, restOrdered, later⟩
        refine ⟨⟨valid, restValid⟩, ⟨later _ rfl, restOrdered⟩, fun before named => ?_⟩
        obtain rfl : previous = some before := named
        have here : before < entry.identity := by simpa using after
        exact ⟨here, fun next member => here.trans (later _ rfl next member)⟩
      · rintro ⟨⟨valid, restValid⟩, ⟨later, restOrdered⟩, after⟩
        refine ⟨(), valid, (), ?_, restValid, restOrdered, ?_⟩
        · cases previous with
          | none => rfl
          | some before => simpa using (after before rfl).1
        · rintro _ ⟨⟩ next member
          exact later next member

theorem Ordered.distinct (ordered : Ordered entries) : (entries.map (·.identity)).Nodup :=
  nodup_of_strict ordered

/-- Valid entries with distinct addresses within the limit are put in order. -/
theorem canonicalEntries_eq_ok {maxEntries : Nat}
    : canonicalEntries entries maxEntries = .ok others
      ↔ AllValid entries ∧ (entries.map (·.identity)).Nodup ∧ entries.length ≤ maxEntries
        ∧ others = sortBy (·.identity) entries := by
  have perm := sortBy_perm (·.identity) entries
  simp only [canonicalEntries, bind_eq_ok, pure_eq_ok, Store.require_eq_ok, Bool.and_eq_true,
    decide_eq_true_eq, perm.length_eq, (perm.map _).nodup_iff, AllValid]
  constructor
  · rintro ⟨_, valid, _, ⟨distinct, short⟩, rfl⟩
    exact ⟨Fallible.forM_eq_ok.mp valid, distinct, short, rfl⟩
  · rintro ⟨valid, distinct, short, rfl⟩
    exact ⟨(), Fallible.forM_eq_ok.mpr valid, (), ⟨distinct, short⟩, rfl⟩

theorem sortBy_ordered (distinct : (entries.map (·.identity)).Nodup)
    : Ordered (sortBy (·.identity) entries) := by
  refine sortBy_strict (List.Pairwise.isChain ?_)
  exact List.pairwise_map.mp (((sortBy_perm _ _).map _).nodup_iff.mpr distinct)

/-! ## Documents -/

/-- The text is one that a component may be. -/
def IsComponent (value : String) : Prop :=
  (!value.isEmpty && value == LongTerm.trim value) = true

theorem requireComponent_eq_ok {value field : String} {done : Unit}
    : requireComponent value field = .ok done ↔ IsComponent value := by
  rw [requireComponent, Store.require_eq_ok, IsComponent]

theorem isComponent_name (kind : RecallIndexKind) : IsComponent kind.name := by
  unfold IsComponent
  cases kind <;> decide +kernel

theorem name_injective : Function.Injective RecallIndexKind.name := by
  intro kind other same
  cases kind <;> cases other <;> first | rfl | exact absurd same (by decide +kernel)

/-- The key of an index of canonical components. -/
def physicalKeyOf (sha256 : List UInt8 → String) (name : String) (scope : List String)
    : String :=
  "ridx1:" ++ String.ofList ((sha256 (Framing.frames
    (textBytes "beetle_recall_index_physical_key_v1" :: textBytes name
      :: scope.map textBytes))).toList.take 56)

theorem recallIndexPhysicalKey_eq_ok {name key : String} {scope : List String}
    : recallIndexPhysicalKey sha256 name scope = .ok key
      ↔ IsComponent name ∧ (∀ part ∈ scope, IsComponent part)
        ∧ key = physicalKeyOf sha256 name scope := by
  simp only [recallIndexPhysicalKey, bind_eq_ok, pure_eq_ok, requireComponent_eq_ok]
  constructor
  · rintro ⟨_, named, _, parts, rfl⟩
    refine ⟨named, fun part member => ?_, rfl⟩
    exact requireComponent_eq_ok.mp (Fallible.forM_eq_ok.mp parts part member)
  · rintro ⟨named, parts, rfl⟩
    refine ⟨(), named, (), Fallible.forM_eq_ok.mpr fun part member => ?_, rfl⟩
    exact requireComponent_eq_ok.mpr (parts part member)

/-- The document of entries at a revision. -/
def indexOf (sha256 : List UInt8 → String) (revision : UInt64)
    (scope : RecallScope kind) (entries : List RecallIndexAddress)
    : RecallIndex kind where
  schemaVersion := recallIndexSchemaVersion
  physicalKey := physicalKeyOf sha256 kind.name scope.parts
  revision := revision
  scope := scope
  entryCount := entries.length
  entries := entries
  entriesDigest := recallIndexEntriesDigest sha256 kind.name recallIndexSchemaVersion revision
    scope.parts entries

/-- Revision, scope and entries that an index may have. -/
structure Indexable (revision : UInt64) (scope : RecallScope kind)
    (entries : List RecallIndexAddress)
    : Prop where
  revised : revision ≠ 0
  canonical : ∀ part ∈ scope.parts, IsComponent part
  valid : AllValid entries
  short : entries.length ≤ kind.maxEntries

/-- A valid index is the document of its entries, which are in order. -/
theorem validate_eq_ok {done : Unit}
    : index.validate sha256 = .ok done
      ↔ Indexable index.revision index.scope index.entries ∧ Ordered index.entries
        ∧ index = indexOf sha256 index.revision index.scope index.entries := by
  obtain ⟨schemaVersion, physicalKey, revision, scope, entryCount, entries, digest⟩ := index
  simp only [RecallIndex.validate, bind_eq_ok, Store.require_eq_ok, recallIndexPhysicalKey_eq_ok,
    checkOrder_eq_ok, Bool.and_eq_true, beq_iff_eq, bne_iff_ne, decide_eq_true_eq, indexOf,
    RecallIndex.mk.injEq, true_and]
  constructor
  · rintro ⟨_, ⟨⟨⟨rfl, revised⟩, rfl⟩, short⟩, _, ⟨-, canonical, rfl⟩, _, rfl, _,
      ⟨valid, ordered, -⟩, rfl⟩
    exact ⟨⟨revised, canonical, valid, short⟩, ordered, rfl, rfl, rfl, rfl⟩
  · rintro ⟨⟨revised, canonical, valid, short⟩, ordered, rfl, rfl, rfl, rfl⟩
    exact ⟨(), ⟨⟨⟨rfl, revised⟩, rfl⟩, short⟩, _, ⟨isComponent_name kind, canonical, rfl⟩, (),
      rfl, (), ⟨valid, ordered, by simp⟩, rfl⟩

/-- The components of a scope are checked one by one under their names. -/
theorem checkScope_eq_ok {scope : RecallScope kind} {done : Unit}
    : ((scope.parts.zip kind.fields).forM fun part => requireComponent part.1 part.2) = .ok done
      ↔ ∀ part ∈ scope.parts, IsComponent part := by
  have parts : (scope.parts.zip kind.fields).map Prod.fst = scope.parts :=
    List.map_fst_zip scope.arity.le
  constructor
  · intro checked part member
    rw [← parts] at member
    obtain ⟨pair, listed, rfl⟩ := List.mem_map.mp member
    exact requireComponent_eq_ok.mp (Fallible.forM_eq_ok.mp checked pair listed)
  · refine fun canonical => Fallible.forM_eq_ok.mpr fun pair listed => ?_
    refine requireComponent_eq_ok.mpr (canonical _ ?_)
    rw [← parts]
    exact List.mem_map_of_mem listed

/-- An index is built of valid entries with distinct addresses within the limit. -/
theorem build_eq_ok {revision : UInt64} {scope : RecallScope kind}
    : RecallIndex.build sha256 revision scope entries = .ok index
      ↔ Indexable revision scope entries ∧ (entries.map (·.identity)).Nodup
        ∧ index = indexOf sha256 revision scope (sortBy (·.identity) entries) := by
  have perm := sortBy_perm (·.identity) entries
  simp only [RecallIndex.build, bind_eq_ok, pure_eq_ok, checkScope_eq_ok, Store.require_eq_ok,
    bne_iff_ne, canonicalEntries_eq_ok, recallIndexPhysicalKey_eq_ok, validate_eq_ok]
  constructor
  · rintro ⟨_, canonical, _, revised, _, ⟨valid, distinct, short, rfl⟩, _, ⟨-, -, rfl⟩, _, -, rfl⟩
    exact ⟨⟨revised, canonical, valid, short⟩, distinct, rfl⟩
  · rintro ⟨⟨revised, canonical, valid, short⟩, distinct, rfl⟩
    refine ⟨(), canonical, (), revised, _, ⟨valid, distinct, short, rfl⟩, _,
      ⟨isComponent_name kind, canonical, rfl⟩, (), ⟨⟨revised, canonical, ?_, ?_⟩, ?_, rfl⟩, rfl⟩
    · exact fun entry member => valid entry (perm.mem_iff.mp member)
    · exact perm.length_eq.trans_le short
    · exact sortBy_ordered distinct

/-! ## Edits -/

/-- The latest entry at each address. -/
abbrev AddressMap : Type := Identity → Option RecallIndexAddress

/-- How many addresses have an entry. -/
noncomputable def mapSize (map : AddressMap) : Nat :=
  Set.ncard {address | map address ≠ none}

def mapOf (entries : List RecallIndexAddress) : AddressMap :=
  lookup (·.identity) entries

inductive Edit where
  | replace (next : RecallIndexAddress)
  | remove (kind : RecallIndexAddressKind) (ns key : String)

def Edit.onEntries (edit : Edit) (entries : List RecallIndexAddress) : List RecallIndexAddress :=
  match edit with
  | .replace next => replaceRecallIndexAddress entries next
  | .remove kind ns key => removeRecallIndexAddress entries kind ns key

def Edit.onMap (edit : Edit) (map : AddressMap) : AddressMap :=
  match edit with
  | .replace next => Function.update map next.identity (some next)
  | .remove kind ns key => Function.update map (identityOf kind ns key) none

/-- The entry that an edit brings is valid. -/
def Edit.Valid : Edit → Prop
  | .replace next => next.validate = .ok ()
  | .remove _ _ _ => True

theorem mem_remove {entry : RecallIndexAddress} {kind : RecallIndexAddressKind} {ns key : String}
    : entry ∈ removeRecallIndexAddress entries kind ns key
      ↔ entry ∈ entries ∧ entry.identity ≠ identityOf kind ns key := by
  rw [removeRecallIndexAddress, List.mem_filter, differs_iff]

/-- A replacement is a removal and the new entry. -/
theorem replace_eq (next : RecallIndexAddress)
    : replaceRecallIndexAddress entries next
      = removeRecallIndexAddress entries next.kind next.ns next.key ++ [next] :=
  rfl

theorem mapOf_remove (kind : RecallIndexAddressKind) (ns key : String)
    : mapOf (removeRecallIndexAddress entries kind ns key)
      = Function.update (mapOf entries) (identityOf kind ns key) none := by
  funext address
  by_cases here : address = identityOf kind ns key
  · subst here
    rw [Function.update_self]
    exact lookup_eq_none_iff.mpr fun entry member => (mem_remove.mp member).2
  · rw [Function.update_of_ne here]
    refine lookup_filter fun entry _ same => differs_iff.mpr ?_
    exact same ▸ here

/-- An edit of the entries is the edit of their map. -/
theorem mapOf_onEntries (edit : Edit)
    : mapOf (edit.onEntries entries) = edit.onMap (mapOf entries) := by
  cases edit with
  | remove kind ns key => exact mapOf_remove kind ns key
  | replace next =>
      funext address
      simp only [Edit.onEntries, Edit.onMap, replace_eq]
      rw [mapOf, lookup_concat]
      by_cases here : next.identity = address
      · rw [if_pos here, ← here, Function.update_self]
      · rw [if_neg here, Function.update_of_ne (Ne.symm here)]
        have removed : mapOf (removeRecallIndexAddress entries next.kind next.ns next.key) address
            = Function.update (mapOf entries) next.identity none address :=
          congrFun (mapOf_remove next.kind next.ns next.key) address
        exact removed.trans (Function.update_of_ne (Ne.symm here) _ _)

theorem onEntries_distinct (edit : Edit) (distinct : (entries.map (·.identity)).Nodup)
    : ((edit.onEntries entries).map (·.identity)).Nodup := by
  cases edit with
  | remove kind ns key => exact distinct.sublist (List.filter_sublist.map _)
  | replace next =>
      simp only [Edit.onEntries, replace_eq, List.map_append]
      refine List.Nodup.append (distinct.sublist (List.filter_sublist.map _)) (by simp) ?_
      intro address member last
      obtain ⟨entry, listed, rfl⟩ := List.mem_map.mp member
      exact (mem_remove.mp listed).2 (List.mem_singleton.mp last)

theorem onEntries_valid {edit : Edit} (valid : edit.Valid) (all : AllValid entries)
    : AllValid (edit.onEntries entries) := by
  cases edit with
  | remove kind ns key => exact fun entry member => all entry (mem_remove.mp member).1
  | replace next =>
      intro entry member
      rcases List.mem_append.mp member with kept | last
      · exact all entry (mem_remove.mp kept).1
      · exact List.mem_singleton.mp last ▸ valid

/-- Entries with distinct addresses are as many as the map has. -/
theorem mapSize_mapOf (distinct : (entries.map (·.identity)).Nodup)
    : mapSize (mapOf entries) = entries.length := by
  have addresses : {address | mapOf entries address ≠ none}
      = ((entries.map (·.identity)).toFinset : Set Identity) := by
    ext address
    simp only [Set.mem_ofPred_eq, mapOf, ne_eq, lookup_eq_none_iff, List.coe_toFinset,
      List.mem_map]
    push Not
    rfl
  rw [mapSize, addresses, Set.ncard_coe_finset, List.toFinset_card_of_nodup distinct,
    List.length_map]

/-! ## Rebuilding -/

/-- An edit, and the revision that the index is rebuilt at after it. -/
structure Step where
  edit : Edit
  revision : UInt64

def Step.Valid (step : Step) : Prop :=
  step.edit.Valid ∧ step.revision ≠ 0

def rebuild (sha256 : List UInt8 → String) (index : RecallIndex kind) (step : Step)
    : Except Store.Error (RecallIndex kind) :=
  RecallIndex.build sha256 step.revision index.scope (step.edit.onEntries index.entries)

def rebuildAll (sha256 : List UInt8 → String) (index : RecallIndex kind)
    (steps : List Step)
    : Except Store.Error (RecallIndex kind) :=
  steps.foldlM (rebuild sha256) index

/-- The map after the edits of all steps. -/
def mapAfter (map : AddressMap) (steps : List Step) : AddressMap :=
  steps.foldl (fun map step => step.edit.onMap map) map

/-- A valid index whose entries are those of the map, in strict order. -/
structure IsCanonicalForm (sha256 : List UInt8 → String) (index : RecallIndex kind)
    (map : AddressMap)
    : Prop where
  valid : index.validate sha256 = .ok ()
  ordered : Ordered index.entries
  listed : ∀ address entry, map address = some entry
    ↔ entry ∈ index.entries ∧ entry.identity = address

/-- A valid index is the canonical form of the map of its entries. -/
theorem isCanonicalForm_iff {map : AddressMap}
    : IsCanonicalForm sha256 index map
      ↔ index.validate sha256 = .ok () ∧ mapOf index.entries = map := by
  constructor
  · refine fun form => ⟨form.valid, funext fun address => Option.ext fun entry => ?_⟩
    rw [form.listed, mapOf, lookup_eq_some_iff form.ordered.distinct]
  · rintro ⟨valid, rfl⟩
    have ordered := (validate_eq_ok.mp valid).2.1
    exact ⟨valid, ordered, fun address entry => lookup_eq_some_iff ordered.distinct⟩

/-- The revision, the scope and the map say all there is. -/
theorem IsCanonicalForm.unique {map : AddressMap} (form : IsCanonicalForm sha256 index map)
    (otherForm : IsCanonicalForm sha256 other map) (scope : index.scope = other.scope)
    (revision : index.revision = other.revision)
    : index = other := by
  obtain ⟨-, ordered, document⟩ := validate_eq_ok.mp form.valid
  obtain ⟨-, otherOrdered, otherDocument⟩ := validate_eq_ok.mp otherForm.valid
  have maps := (isCanonicalForm_iff.mp form).2.trans (isCanonicalForm_iff.mp otherForm).2.symm
  have entries : index.entries = other.entries :=
    eq_of_lookup_eq ordered otherOrdered (congrFun maps)
  rw [document, otherDocument, scope, revision, entries]

section Steps

variable {map : AddressMap} {step : Step}

/-- A rebuild succeeds exactly within the entry limit, and gives the canonical form of the edited
map.
-/
theorem rebuild_eq_ok (form : IsCanonicalForm sha256 index map) (valid : step.Valid)
    {next : RecallIndex kind}
    : rebuild sha256 index step = .ok next
      ↔ mapSize (step.edit.onMap map) ≤ kind.maxEntries
        ∧ next = indexOf sha256 step.revision index.scope
          (sortBy (·.identity) (step.edit.onEntries index.entries)) := by
  obtain ⟨accepted, rfl⟩ := isCanonicalForm_iff.mp form
  obtain ⟨indexable, ordered, -⟩ := validate_eq_ok.mp accepted
  have distinct := onEntries_distinct step.edit ordered.distinct
  rw [← mapOf_onEntries, mapSize_mapOf distinct, rebuild, build_eq_ok]
  constructor
  · rintro ⟨next, -, rfl⟩
    exact ⟨next.short, rfl⟩
  · rintro ⟨short, rfl⟩
    exact ⟨⟨valid.2, indexable.canonical, onEntries_valid valid.1 indexable.valid, short⟩,
      distinct, rfl⟩

theorem rebuild_canonical (form : IsCanonicalForm sha256 index map)
    {next : RecallIndex kind} (rebuilt : rebuild sha256 index step = .ok next)
    : IsCanonicalForm sha256 next (step.edit.onMap map) := by
  obtain ⟨accepted, rfl⟩ := isCanonicalForm_iff.mp form
  obtain ⟨built, distinct, rfl⟩ := build_eq_ok.mp rebuilt
  have perm := sortBy_perm (·.identity) (step.edit.onEntries index.entries)
  refine isCanonicalForm_iff.mpr ⟨validate_eq_ok.mpr ⟨⟨built.revised, built.canonical,
    fun entry member => built.valid entry (perm.mem_iff.mp member),
    perm.length_eq.trans_le built.short⟩, sortBy_ordered distinct, rfl⟩, ?_⟩
  rw [← mapOf_onEntries]
  exact funext (lookup_eq_of_perm ((perm.map _).nodup_iff.mpr distinct) perm)

end Steps

/-- What a run of rebuilds leads to: the canonical form of the edited map, in the same scope and at
the last revision. Witness: induction on the steps.
-/
theorem rebuildAll_canonical {map : AddressMap} {steps : List Step}
    (form : IsCanonicalForm sha256 index map) (valid : ∀ step ∈ steps, step.Valid)
    {final : RecallIndex kind} (run : rebuildAll sha256 index steps = .ok final)
    : IsCanonicalForm sha256 final (mapAfter map steps) ∧ final.scope = index.scope
      ∧ final.revision = (steps.getLast?.map (·.revision)).getD index.revision := by
  induction steps generalizing index map with
  | nil =>
      obtain rfl := pure_eq_ok.mp run
      exact ⟨form, rfl, rfl⟩
  | cons step rest ih =>
      obtain ⟨here, later⟩ := List.forall_mem_cons.mp valid
      rw [rebuildAll, List.foldlM_cons] at run
      obtain ⟨next, rebuilt, run⟩ := bind_eq_ok.mp run
      obtain ⟨reached, scope, revision⟩ := ih (rebuild_canonical form rebuilt) later run
      obtain ⟨-, rfl⟩ := (rebuild_eq_ok form here).mp rebuilt
      refine ⟨reached, scope, revision.trans ?_⟩
      cases rest with
      | nil => rfl
      | cons second rest =>
          rw [List.getLast?_cons_cons]
          cases last : (second :: rest).getLast? with
          | none => simp at last
          | some final => rfl

/-! ## Digests -/

/-- A valid index has the digest of its own fields. -/
theorem AnyRecallIndex.entriesDigest_eq {index : AnyRecallIndex}
    (valid : index.validate sha256 = .ok ())
    : index.entriesDigest
      = "sha256:" ++ sha256 (Framing.frames (index.digestFields)) := by
  cases index with
  | @typed kind index =>
      have document := (validate_eq_ok.mp valid).2.2
      rw [AnyRecallIndex.entriesDigest, document]
      rfl
  | head manifest =>
      simp only [AnyRecallIndex.validate, ConversationRecallManifest.validate, bind_eq_ok,
        Store.require_eq_ok, Bool.and_eq_true, beq_iff_eq] at valid
      obtain ⟨-, -, -, -, -, digest⟩ := valid
      exact digest

theorem textBytes_injective : Function.Injective textBytes :=
  Framing.utf8_injective

theorem encode_injective : Function.Injective RecallIndexAddress.encode := by
  rintro ⟨kind, ns, key, revision, updatedAt, digest⟩ ⟨kind', ns', key', revision', updatedAt',
    digest'⟩ same
  have read := JsonText.fromBytes_toBytes .compact
  have values := Option.some.inj
    ((read _).symm.trans ((congrArg JsonText.fromBytes same).trans (read _)))
  simp only [JsonText.Json.object.injEq, List.cons.injEq, Prod.mk.injEq,
    JsonText.Json.string.injEq, JsonText.Json.number.injEq, true_and, and_true,
    UInt64.toNat_inj] at values
  obtain ⟨kinds, rfl, rfl, rfl, rfl, rfl⟩ := values
  have same : kind = kind' := by
    cases kind <;> cases kind' <;> first | rfl | exact absurd kinds (by decide)
  rw [same]

/-- The two indexes say the same. -/
structure SameIndex (index other : AnyRecallIndex) : Prop where
  kind : index.kindName = other.kindName
  scope : index.scopeDigestParts = other.scopeDigestParts
  revision : index.revision = other.revision
  entries : index.entries = other.entries

theorem toNat_lt (revision : UInt64) : revision.toNat < 256 ^ 8 :=
  revision.toNat_lt

/-- The fields of a typed index tell its parts apart: the number of scope components follows from
the kind.
-/
theorem typed_sameIndex {otherKind : RecallIndexKind} {index : RecallIndex kind}
    {other : RecallIndex otherKind}
    (same : (AnyRecallIndex.typed index).digestFields
      = (AnyRecallIndex.typed other).digestFields)
    : SameIndex (.typed index) (.typed other) := by
  simp only [AnyRecallIndex.digestFields, entriesDigestFields, List.cons_append, List.nil_append,
    List.cons.injEq, true_and] at same
  obtain ⟨names, -, revisions, parts⟩ := same
  obtain rfl := name_injective (textBytes_injective names)
  have arity : (index.scope.parts.map textBytes).length
      = (other.scope.parts.map textBytes).length := by
    simp [index.scope.arity, other.scope.arity]
  obtain ⟨scopes, entries⟩ := List.append_inj parts arity
  exact ⟨rfl, List.map_injective_iff.mpr textBytes_injective scopes,
    UInt64.toNat_inj.mp (bigEndian_inj (toNat_lt _) (toNat_lt _) revisions),
    List.map_injective_iff.mpr encode_injective entries⟩

theorem head_sameIndex {manifest other : ConversationRecallManifest}
    (same : manifest.headDigestFields = other.headDigestFields)
    : SameIndex (.head manifest) (.head other) := by
  have texts := List.map_injective_iff.mpr textBytes_injective same
  simp only [ConversationRecallManifest.scopeDigestParts, List.cons_append, List.nil_append,
    List.cons.injEq, true_and] at texts
  obtain ⟨revision, space, subject, channel, conversation, -⟩ := texts
  refine ⟨rfl, ?_, UInt64.toNat_inj.mp (Digests.toString_injective revision), rfl⟩
  simp only [AnyRecallIndex.scopeDigestParts, ConversationRecallManifest.scopeDigestParts, space,
    subject, channel, conversation]

/-- Heads and typed indexes are digested under different names. -/
theorem typed_ne_head {index : RecallIndex kind} {manifest : ConversationRecallManifest}
    : (AnyRecallIndex.typed index).digestFields
      ≠ (AnyRecallIndex.head manifest).digestFields := by
  intro same
  have names := textBytes_injective (List.cons.inj same).1
  exact absurd names (by decide +kernel)

theorem sameIndex_of_digestFields {index other : AnyRecallIndex}
    (same : index.digestFields = other.digestFields)
    : SameIndex index other := by
  cases index with
  | typed index =>
      cases other with
      | typed other => exact typed_sameIndex same
      | head manifest => exact absurd same typed_ne_head
  | head manifest =>
      cases other with
      | typed other => exact absurd same.symm typed_ne_head
      | head other => exact head_sameIndex same

/-- Every field that is hashed is as short as a byte string in memory is. -/
def AnyRecallIndex.Held (index : AnyRecallIndex) : Prop :=
  ∀ field ∈ index.digestFields, Short field

theorem sameIndex_of_entriesDigest {index other : AnyRecallIndex}
    (injective : Function.Injective sha256)
    (valid : index.validate sha256 = .ok ()) (otherValid : other.validate sha256 = .ok ())
    (held : index.Held) (otherHeld : other.Held)
    (same : index.entriesDigest = other.entriesDigest)
    : SameIndex index other := by
  rw [AnyRecallIndex.entriesDigest_eq valid, AnyRecallIndex.entriesDigest_eq otherValid] at same
  have digests : sha256 (Framing.frames (index.digestFields))
      = sha256 (Framing.frames (other.digestFields)) := by
    have lists := congrArg String.toList same
    simp only [String.toList_append, List.append_cancel_left_eq] at lists
    exact String.toList_inj.mp lists
  exact sameIndex_of_digestFields (frames_inj held otherHeld (injective digests))

/-- Whatever edits led to it, an index is the canonical form of the edited map. Every rebuild
within the entry limit succeeds, runs to the same map at the same revision give the same document,
and an injective digest tells apart all valid indexes.
-/
theorem recall_index_canonical (sha256 : List UInt8 → String)
    : (∀ {kind : RecallIndexKind} (start : RecallIndex kind) (steps : List Step),
        start.validate sha256 = .ok () → (∀ step ∈ steps, step.Valid)
        → ∀ index, rebuildAll sha256 start steps = .ok index
          → IsCanonicalForm sha256 index (mapAfter (mapOf start.entries) steps)
            ∧ index.scope = start.scope
            ∧ index.revision = (steps.getLast?.map (·.revision)).getD start.revision
            ∧ ∀ step, step.Valid
              → ((∃ next, rebuild sha256 index step = .ok next)
                ↔ mapSize (step.edit.onMap (mapAfter (mapOf start.entries) steps))
                  ≤ kind.maxEntries))
      ∧ (∀ {kind : RecallIndexKind} (start again : RecallIndex kind) (steps others : List Step),
        start.validate sha256 = .ok () → again.validate sha256 = .ok ()
        → (∀ step ∈ steps, step.Valid) → (∀ step ∈ others, step.Valid)
        → start.scope = again.scope
        → ∀ index other, rebuildAll sha256 start steps = .ok index
          → rebuildAll sha256 again others = .ok other
          → mapAfter (mapOf start.entries) steps = mapAfter (mapOf again.entries) others
          → index.revision = other.revision → index = other)
      ∧ (Function.Injective sha256 → ∀ index other : AnyRecallIndex,
        index.validate sha256 = .ok () → other.validate sha256 = .ok ()
        → index.Held → other.Held → index.entriesDigest = other.entriesDigest
        → SameIndex index other) := by
  refine ⟨?_, ?_, fun injective index other => sameIndex_of_entriesDigest injective⟩
  · intro kind start steps accepted valid index run
    have begun := isCanonicalForm_iff.mpr ⟨accepted, rfl⟩
    obtain ⟨form, scope, revision⟩ := rebuildAll_canonical begun valid run
    refine ⟨form, scope, revision, fun step here => ?_⟩
    constructor
    · rintro ⟨next, rebuilt⟩
      exact ((rebuild_eq_ok form here).mp rebuilt).1
    · exact fun short => ⟨_, (rebuild_eq_ok form here).mpr ⟨short, rfl⟩⟩
  · intro kind start again steps others accepted againAccepted valid othersValid scopes index other
      run otherRun maps revisions
    obtain ⟨form, scope, -⟩ :=
      rebuildAll_canonical (isCanonicalForm_iff.mpr ⟨accepted, rfl⟩) valid run
    obtain ⟨otherForm, otherScope, -⟩ :=
      rebuildAll_canonical (isCanonicalForm_iff.mpr ⟨againAccepted, rfl⟩) othersValid otherRun
    exact form.unique (maps ▸ otherForm) (scope.trans (scopes.trans otherScope.symm)) revisions

/-- A document of the sample at one of its revisions. -/
def sampleAddress (key : String) (revision : UInt64) : RecallIndexAddress :=
  ⟨.json, "n", key, revision, 1, "sha256:" ++ String.ofList (List.replicate 64 '0')⟩

def sampleRecallScope : RecallScope .archiveRecall :=
  ⟨["s", "t"], rfl⟩

theorem sampleAddress_indexable {revision : UInt64} {entries : List RecallIndexAddress}
    (revised : revision ≠ 0) (inside : entries ⊆ [sampleAddress "a" 1, sampleAddress "b" 1])
    (short : entries.length ≤ 2)
    : Indexable revision sampleRecallScope entries where
  revised := revised
  canonical := by
    unfold IsComponent
    decide +kernel
  valid := by
    have both : ∀ entry ∈ [sampleAddress "a" 1, sampleAddress "b" 1],
        entry.validate = .ok () := by
      decide +kernel
    exact fun entry member => both entry (inside member)
  short := short.trans (by decide)

/-- One of the two documents is added. -/
theorem sampleAddress_rebuilt (sha256 : List UInt8 → String) (key : String)
    (revision next : UInt64) (entries added : List RecallIndexAddress) (revised : next ≠ 0)
    (edited : let after := replaceRecallIndexAddress entries (sampleAddress key 1)
      after ⊆ [sampleAddress "a" 1, sampleAddress "b" 1] ∧ after.length ≤ 2
        ∧ (after.map (·.identity)).Nodup ∧ added = sortBy (·.identity) after)
    : rebuild sha256 (indexOf sha256 revision sampleRecallScope entries)
        ⟨.replace (sampleAddress key 1), next⟩
      = .ok (indexOf sha256 next sampleRecallScope added) := by
  obtain ⟨inside, short, distinct, rfl⟩ := edited
  exact build_eq_ok.mpr ⟨sampleAddress_indexable revised inside short, distinct, rfl⟩

/-- Some injective digest, and two documents added in either order. -/
theorem sampleRuns_canonical
    : ∃ (sha256 : List UInt8 → String) (start index other : RecallIndex .archiveRecall),
        Function.Injective sha256 ∧ start.validate sha256 = .ok ()
        ∧ rebuildAll sha256 start [⟨.replace (sampleAddress "a" 1), 2⟩,
            ⟨.replace (sampleAddress "b" 1), 3⟩] = .ok index
        ∧ rebuildAll sha256 start [⟨.replace (sampleAddress "b" 1), 2⟩,
            ⟨.replace (sampleAddress "a" 1), 3⟩] = .ok other
        ∧ index = other ∧ index.entries = [sampleAddress "a" 1, sampleAddress "b" 1]
        ∧ SameIndex (.typed index) (.typed other) := by
  obtain ⟨sha256, injective⟩ := Digests.exists_injective_text (List UInt8)
  have empty : Indexable 1 sampleRecallScope [] :=
    sampleAddress_indexable (by decide) (List.nil_subset _) (Nat.zero_le _)
  have accepted : (indexOf sha256 1 sampleRecallScope []).validate sha256 = .ok () :=
    validate_eq_ok.mpr ⟨empty, .nil, rfl⟩
  have both : ∀ {a b : Step} {middle last : RecallIndex .archiveRecall},
      rebuild sha256 (indexOf sha256 1 sampleRecallScope []) a = .ok middle
      → rebuild sha256 middle b = .ok last
      → rebuildAll sha256 (indexOf sha256 1 sampleRecallScope []) [a, b] = .ok last := by
    intro a b middle last first second
    simp only [rebuildAll, List.foldlM_cons, List.foldlM_nil, first, second, Fallible.ok_bind]
    rfl
  have run := both
    (sampleAddress_rebuilt sha256 "a" 1 2 [] [sampleAddress "a" 1] (by decide) (by decide +kernel))
    (sampleAddress_rebuilt sha256 "b" 2 3 [sampleAddress "a" 1]
      [sampleAddress "a" 1, sampleAddress "b" 1] (by decide) (by decide +kernel))
  have otherRun := both
    (sampleAddress_rebuilt sha256 "b" 1 2 [] [sampleAddress "b" 1] (by decide) (by decide +kernel))
    (sampleAddress_rebuilt sha256 "a" 2 3 [sampleAddress "b" 1]
      [sampleAddress "a" 1, sampleAddress "b" 1] (by decide) (by decide +kernel))
  have entryValid : ∀ entry ∈ [sampleAddress "a" 1, sampleAddress "b" 1],
      entry.validate = .ok () := by
    decide +kernel
  have valid : ∀ step ∈ [Step.mk (.replace (sampleAddress "a" 1)) 2,
      ⟨.replace (sampleAddress "b" 1), 3⟩], step.Valid := by
    simpa [Step.Valid, Edit.Valid] using entryValid
  have otherValid : ∀ step ∈ [Step.mk (.replace (sampleAddress "b" 1)) 2,
      ⟨.replace (sampleAddress "a" 1), 3⟩], step.Valid := by
    simpa [Step.Valid, Edit.Valid, and_comm] using entryValid
  obtain ⟨runs, unique, digests⟩ := recall_index_canonical sha256
  have form := (runs _ _ accepted valid _ run).1
  have held : ∀ field ∈ entriesDigestFields RecallIndexKind.archiveRecall.name
      recallIndexSchemaVersion 3 sampleRecallScope.parts
      [sampleAddress "a" 1, sampleAddress "b" 1], Short field := by
    unfold Short
    decide +kernel
  refine ⟨sha256, _, _, _, injective, accepted, run, otherRun,
    unique _ _ _ _ accepted accepted valid otherValid rfl _ _ run otherRun ?_ rfl, rfl,
    digests injective _ _ form.valid form.valid held held rfl⟩
  exact Function.update_comm (by decide +kernel) _ _ _

end BeetleMemory.Recall

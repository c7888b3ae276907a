import BeetleMemory.LongTerm.Lineage
import BeetleMemory.Lib.Fallible

/-! A lineage report is complete exactly when its items form one chain, lists every kind of failure
that is present and no other, and does not depend on the order of the items.
-/

namespace BeetleMemory.LongTerm

open Keyed
open Chains (Trail Follows)
open Relation (TransGen)
open Fallible (bind_eq_ok pure_eq_ok)

variable {items again : List GovernedUpdateLineageItem} {depth : Nat}
  {item other : GovernedUpdateLineageItem}

/-- Items that a report can be made of. -/
structure LineageInput (items : List GovernedUpdateLineageItem) : Prop where
  valid : ∀ item ∈ items, item.ownerRevisionRef.isValid = true
  digests : ∀ item ∈ items,
    isLowercaseSha256 item.scopeDigest = true ∧ isLowercaseSha256 item.contentDigest = true
  distinct : (items.map (·.ownerRevisionRef)).Nodup

theorem LineageInput.perm (input : LineageInput items) (perm : items.Perm again)
    : LineageInput again where
  valid := by simpa only [← perm.mem_iff] using input.valid
  digests := by simpa only [← perm.mem_iff] using input.digests
  distinct := (perm.map _).nodup_iff.mp input.distinct

/-! ## Kinds of failures -/

/-- A link of the item leads to the other one. -/
def GovernedUpdateLineageItem.Links (item other : GovernedUpdateLineageItem) : Prop :=
  item.predecessor = some other.ownerRevisionRef ∨ item.successor = some other.ownerRevisionRef

/-- Each link leads to an item that links back. -/
def Reciprocal (items : List GovernedUpdateLineageItem) : Prop :=
  ∀ item ∈ items,
    (∀ reference ∈ item.predecessor, ∃ other ∈ items, other.ownerRevisionRef = reference
      ∧ other.successor = some item.ownerRevisionRef)
    ∧ ∀ reference ∈ item.successor, ∃ other ∈ items, other.ownerRevisionRef = reference
      ∧ other.predecessor = some item.ownerRevisionRef

/-- One item has no predecessor and one has no successor. -/
def SingleEnds (items : List GovernedUpdateLineageItem) : Prop :=
  items.countP (·.predecessor.isNone) = 1 ∧ items.countP (·.successor.isNone) = 1

/-- The failure is there, whatever the order of the items. -/
def FailurePresent (items : List GovernedUpdateLineageItem) (depth : Nat)
    : MemoryUpdateLineageFailure → Prop
  | .cycle =>
      (∃ item ∈ items, item.Links item)
        ∨ ∃ reference, TransGen (Follows (successorOf items)) reference reference
  | .gap => ¬ Reciprocal items ∨ (items ≠ [] ∧ ¬ SingleEnds items)
  | .scopeMismatch =>
      ∃ item ∈ items, ∃ other ∈ items, item.Links other ∧ other.scopeDigest ≠ item.scopeDigest
  | .privacyMismatch =>
      ∃ item ∈ items, ∃ other ∈ items, item.Links other
        ∧ other.privacyClass ≠ item.privacyClass
  | .depthExceeded => depth < items.length

theorem mem_failIf {condition : Bool} {failure found : GovernedContractFailure}
    : found ∈ failIf condition failure ↔ condition = true ∧ found = failure := by
  cases condition <;> simp [failIf]

theorem mem_contractValidation {failures : List GovernedContractFailure}
    {failure : GovernedContractFailure}
    : failure ∈ (contractValidation failures).failures ↔ failure ∈ failures := by
  simp [contractValidation, failure.mem_ordered]

/-- The predecessor that the item with a reference names. -/
def predecessorOf (items : List GovernedUpdateLineageItem) (reference : GovernedOwnerRevisionRef)
    : Option GovernedOwnerRevisionRef :=
  (lookup (·.ownerRevisionRef) items reference).bind (·.predecessor)

theorem contractValidation_congr {failures others : List GovernedContractFailure}
    (same : ∀ failure, failure ∈ failures ↔ failure ∈ others)
    : (contractValidation failures).failures = (contractValidation others).failures := by
  simp only [contractValidation]
  exact List.filter_congr fun failure _ => by simp [same failure]

theorem reportable_contract (kind : MemoryUpdateLineageFailure)
    : reportableLineageFailure (lineageFailureToContractFailure kind) = some kind := by
  cases kind <;> rfl

theorem contract_of_reportable {failure : GovernedContractFailure}
    {kind : MemoryUpdateLineageFailure} (reported : reportableLineageFailure failure = some kind)
    : failure = lineageFailureToContractFailure kind := by
  cases failure <;> cases reported <;> rfl

section Links

variable (input : LineageInput items)

include input

/-- The item with a reference is found. -/
theorem LineageInput.find_eq_some {reference : GovernedOwnerRevisionRef}
    : items.find? (fun candidate => candidate.ownerRevisionRef == reference) = some other
      ↔ other ∈ items ∧ other.ownerRevisionRef = reference := by
  constructor
  · intro found
    exact ⟨List.mem_of_find?_eq_some found, by simpa using List.find?_some found⟩
  · rintro ⟨member, rfl⟩
    refine find?_eq_some_of_unique member (by simp) fun candidate listed same => ?_
    exact List.inj_on_of_nodup_map input.distinct listed member (by simpa using same)

theorem LineageInput.mem_linkFailures
    {back : GovernedUpdateLineageItem → Option GovernedOwnerRevisionRef}
    {link : Option GovernedOwnerRevisionRef} {failure : GovernedContractFailure}
    : failure ∈ linkFailures items item back link
      ↔ (failure = .lineageGap ∧ ∃ reference ∈ link, ∀ other ∈ items,
            other.ownerRevisionRef = reference → back other ≠ some item.ownerRevisionRef)
        ∨ (failure = .lineageScopeMismatch ∧ ∃ other ∈ items,
            link = some other.ownerRevisionRef ∧ other.scopeDigest ≠ item.scopeDigest)
        ∨ (failure = .lineagePrivacyMismatch ∧ ∃ other ∈ items,
            link = some other.ownerRevisionRef ∧ other.privacyClass ≠ item.privacyClass) := by
  cases link with
  | none => simp [linkFailures]
  | some reference =>
      simp only [linkFailures]
      cases found : items.find? fun candidate => candidate.ownerRevisionRef == reference with
      | none =>
          have missing : ∀ other ∈ items, other.ownerRevisionRef ≠ reference := by
            simpa using found
          constructor
          · intro gap
            refine Or.inl ⟨by simpa using gap, reference, rfl, fun other listed same => ?_⟩
            exact absurd same (missing other listed)
          · rintro (⟨rfl, -⟩ | ⟨-, other, listed, same, -⟩ | ⟨-, other, listed, same, -⟩)
            · simp
            · exact absurd (Option.some.inj same).symm (missing other listed)
            · exact absurd (Option.some.inj same).symm (missing other listed)
      | some other =>
          obtain ⟨member, rfl⟩ := input.find_eq_some.mp found
          have only : ∀ candidate ∈ items,
              candidate.ownerRevisionRef = other.ownerRevisionRef → candidate = other :=
            fun candidate listed same => List.inj_on_of_nodup_map input.distinct listed member same
          have linked : ∀ differs : GovernedUpdateLineageItem → Prop,
              (∃ candidate ∈ items, some other.ownerRevisionRef
                = some candidate.ownerRevisionRef ∧ differs candidate) ↔ differs other := by
            refine fun differs => ⟨?_, fun differ => ⟨other, member, rfl, differ⟩⟩
            rintro ⟨candidate, listed, same, differ⟩
            exact only candidate listed (Option.some.inj same).symm ▸ differ
          have unanswered : (∃ reference ∈ some other.ownerRevisionRef, ∀ candidate ∈ items,
              candidate.ownerRevisionRef = reference
                → back candidate ≠ some item.ownerRevisionRef)
              ↔ back other ≠ some item.ownerRevisionRef := by
            constructor
            · rintro ⟨_, named, none⟩
              exact none other member (Option.some.inj named)
            · refine fun none => ⟨_, rfl, fun candidate listed same => ?_⟩
              exact only candidate listed same ▸ none
          simp only [List.mem_append, mem_failIf, bne_iff_ne, linked, unanswered, or_assoc]
          tauto

theorem LineageInput.successorOf_eq (member : item ∈ items)
    : successorOf items item.ownerRevisionRef = item.successor := by
  rw [successorOf, (lookup_eq_some_iff input.distinct).mpr ⟨member, rfl⟩]
  rfl

theorem LineageInput.predecessorOf_eq (member : item ∈ items)
    : predecessorOf items item.ownerRevisionRef = item.predecessor := by
  rw [predecessorOf, (lookup_eq_some_iff input.distinct).mpr ⟨member, rfl⟩]
  rfl

/-- A reference with a successor is that of an item. -/
theorem LineageInput.successorOf_eq_some {a b : GovernedOwnerRevisionRef}
    : successorOf items a = some b
      ↔ ∃ item ∈ items, item.ownerRevisionRef = a ∧ item.successor = some b := by
  constructor
  · intro goes
    obtain ⟨item, found, successor⟩ := Option.bind_eq_some_iff.mp goes
    exact ⟨item, (lookup_some found).1, (lookup_some found).2, successor⟩
  · rintro ⟨item, member, rfl, successor⟩
    rw [input.successorOf_eq member, successor]

/-- A walk that the check did not see coming back has an end. -/
theorem LineageInput.acc_of_not_revisits {reference : GovernedOwnerRevisionRef}
    (not : Chains.revisits (successorOf items) (items.length + 2) [] (some reference) = false)
    : Acc (Follows (successorOf items)) reference := by
  have closed : ∀ a b, successorOf items a = some b → a ∈ items.map (·.ownerRevisionRef) := by
    intro a b goes
    obtain ⟨other, listed, rfl, -⟩ := input.successorOf_eq_some.mp goes
    exact List.mem_map_of_mem listed
  exact Chains.acc_of_revisits_eq_false closed (by simp) (List.nil_subset _) .nil not

/-- The walks of the check come back exactly when there is a cycle. -/
theorem LineageInput.revisits_iff
    : (items.any fun start => Chains.revisits (successorOf items) (items.length + 2) []
        (some start.ownerRevisionRef)) = true
      ↔ ∃ reference, TransGen (Follows (successorOf items)) reference reference := by
  constructor
  · intro back
    obtain ⟨start, -, back⟩ := List.any_eq_true.mp back
    exact Chains.exists_cycle_of_revisits (by simp) back
  · rintro ⟨reference, cycle⟩
    by_contra none
    -- The reference has a successor, so it is that of an item, whose walk was seen to end.
    obtain ⟨before, -, goes⟩ := TransGen.tail'_iff.mp cycle
    obtain ⟨item, member, rfl, -⟩ := input.successorOf_eq_some.mp goes
    refine Chains.not_cycle_of_acc (input.acc_of_not_revisits ?_) cycle
    simpa using fun back => none (List.any_eq_true.mpr ⟨item, member, back⟩)

/-- What the links of all items fail. -/
theorem LineageInput.mem_links (depth : Nat) {failure : GovernedContractFailure}
    : (∃ item ∈ items, failure ∈ linkFailures items item (·.successor) item.predecessor
        ∨ failure ∈ linkFailures items item (·.predecessor) item.successor)
      ↔ (failure = .lineageGap ∧ ¬ Reciprocal items)
        ∨ (failure = .lineageScopeMismatch ∧ FailurePresent items depth .scopeMismatch)
        ∨ (failure = .lineagePrivacyMismatch ∧ FailurePresent items depth .privacyMismatch) := by
  simp only [input.mem_linkFailures]
  constructor
  · rintro ⟨item, member, (⟨rfl, reference, named, none⟩ | ⟨rfl, other, listed, named, differ⟩
      | ⟨rfl, other, listed, named, differ⟩) | ⟨rfl, reference, named, none⟩
      | ⟨rfl, other, listed, named, differ⟩ | ⟨rfl, other, listed, named, differ⟩⟩
    · refine Or.inl ⟨rfl, fun reciprocal => ?_⟩
      obtain ⟨other, listed, same, back⟩ := (reciprocal item member).1 reference named
      exact none other listed same back
    · exact Or.inr (Or.inl ⟨rfl, item, member, other, listed, Or.inl named, differ⟩)
    · exact Or.inr (Or.inr ⟨rfl, item, member, other, listed, Or.inl named, differ⟩)
    · refine Or.inl ⟨rfl, fun reciprocal => ?_⟩
      obtain ⟨other, listed, same, back⟩ := (reciprocal item member).2 reference named
      exact none other listed same back
    · exact Or.inr (Or.inl ⟨rfl, item, member, other, listed, Or.inr named, differ⟩)
    · exact Or.inr (Or.inr ⟨rfl, item, member, other, listed, Or.inr named, differ⟩)
  · rintro (⟨rfl, broken⟩ | ⟨rfl, item, member, other, listed, named | named, differ⟩
      | ⟨rfl, item, member, other, listed, named | named, differ⟩)
    · simp only [Reciprocal, not_forall] at broken
      obtain ⟨item, member, broken⟩ := broken
      rcases not_and_or.mp broken with before | after
      · push Not at before
        exact ⟨item, member, Or.inl (Or.inl ⟨rfl, before⟩)⟩
      · push Not at after
        exact ⟨item, member, Or.inr (Or.inl ⟨rfl, after⟩)⟩
    · exact ⟨item, member, Or.inl (Or.inr (Or.inl ⟨rfl, other, listed, named, differ⟩))⟩
    · exact ⟨item, member, Or.inr (Or.inr (Or.inl ⟨rfl, other, listed, named, differ⟩))⟩
    · exact ⟨item, member, Or.inl (Or.inr (Or.inr ⟨rfl, other, listed, named, differ⟩))⟩
    · exact ⟨item, member, Or.inr (Or.inr (Or.inr ⟨rfl, other, listed, named, differ⟩))⟩

omit input in
theorem exists_kind {holds : MemoryUpdateLineageFailure → Prop} {failure : GovernedContractFailure}
    : (∃ kind, holds kind ∧ lineageFailureToContractFailure kind = failure)
      ↔ (failure = .lineageCycle ∧ holds .cycle) ∨ (failure = .lineageGap ∧ holds .gap)
        ∨ (failure = .lineageScopeMismatch ∧ holds .scopeMismatch)
        ∨ (failure = .lineagePrivacyMismatch ∧ holds .privacyMismatch)
        ∨ (failure = .lineageDepthExceeded ∧ holds .depthExceeded) := by
  constructor
  · rintro ⟨kind, here, rfl⟩
    cases kind <;> simp [lineageFailureToContractFailure, here]
  · rintro (⟨rfl, here⟩ | ⟨rfl, here⟩ | ⟨rfl, here⟩ | ⟨rfl, here⟩ | ⟨rfl, here⟩)
    all_goals exact ⟨_, here, rfl⟩

/-- The detected failures are those present, each under its contract name. -/
theorem LineageInput.mem_detect {failure : GovernedContractFailure}
    : failure ∈ detectMemoryUpdateLineageFailures items depth
      ↔ ∃ kind, FailurePresent items depth kind
        ∧ lineageFailureToContractFailure kind = failure := by
  have own : (∃ item ∈ items, failure ∈ itemFailures item)
      ↔ failure = .lineageCycle ∧ ∃ item ∈ items, item.Links item := by
    have each : ∀ item ∈ items, (failure ∈ itemFailures item
        ↔ item.Links item ∧ failure = .lineageCycle) := by
      intro item member
      simp [itemFailures, input.valid item member, input.digests item member, mem_failIf,
        GovernedUpdateLineageItem.Links]
    constructor
    · rintro ⟨item, member, found⟩
      obtain ⟨loop, rfl⟩ := (each item member).mp found
      exact ⟨rfl, item, member, loop⟩
    · rintro ⟨rfl, item, member, loop⟩
      exact ⟨item, member, (each item member).mpr ⟨loop, rfl⟩⟩
  have ends : (!items.isEmpty && (items.countP (·.predecessor.isNone) != 1
      || items.countP (·.successor.isNone) != 1)) = true
      ↔ items ≠ [] ∧ ¬ SingleEnds items := by
    simp only [Bool.and_eq_true, Bool.not_eq_true', List.isEmpty_eq_false_iff, Bool.or_eq_true,
      bne_iff_ne, SingleEnds, not_and_or]
  rw [exists_kind]
  simp only [detectMemoryUpdateLineageFailures, mem_contractValidation, List.mem_append,
    List.mem_flatMap, own, mem_failIf, input.distinct, decide_true, Bool.not_true,
    Bool.false_eq_true, false_and, or_false, input.revisits_iff, input.mem_links depth,
    decide_eq_true_eq, ends]
  constructor
  · rintro ((((⟨rfl, loop⟩ | ⟨cycle, rfl⟩) | ⟨deep, rfl⟩) | ⟨rfl, broken⟩ | scope | privacy)
      | ⟨several, rfl⟩)
    · exact Or.inl ⟨rfl, Or.inl loop⟩
    · exact Or.inl ⟨rfl, Or.inr cycle⟩
    · exact Or.inr (Or.inr (Or.inr (Or.inr ⟨rfl, deep⟩)))
    · exact Or.inr (Or.inl ⟨rfl, Or.inl broken⟩)
    · exact Or.inr (Or.inr (Or.inl scope))
    · exact Or.inr (Or.inr (Or.inr (Or.inl privacy)))
    · exact Or.inr (Or.inl ⟨rfl, Or.inr several⟩)
  · rintro (⟨rfl, loop | cycle⟩ | ⟨rfl, broken | several⟩ | scope | privacy | ⟨rfl, deep⟩)
    · exact Or.inl (Or.inl (Or.inl (Or.inl ⟨rfl, loop⟩)))
    · exact Or.inl (Or.inl (Or.inl (Or.inr ⟨cycle, rfl⟩)))
    · exact Or.inl (Or.inr (Or.inl ⟨rfl, broken⟩))
    · exact Or.inr ⟨several, rfl⟩
    · exact Or.inl (Or.inr (Or.inr (Or.inl scope)))
    · exact Or.inl (Or.inr (Or.inr (Or.inr privacy)))
    · exact Or.inl (Or.inl (Or.inr ⟨deep, rfl⟩))

end Links

/-! ## Chains -/

/-- Each names the other. -/
def GovernedUpdateLineageItem.Precedes (item other : GovernedUpdateLineageItem) : Prop :=
  item.successor = some other.ownerRevisionRef ∧ other.predecessor = some item.ownerRevisionRef

/-- Items in the order of their links, from one without predecessor to one without successor, all
of one scope and privacy.
-/
structure IsLineage (chain : List GovernedUpdateLineageItem) : Prop where
  first : ∀ item ∈ chain.head?, item.predecessor = none
  last : ∀ item ∈ chain.getLast?, item.successor = none
  linked : chain.IsChain GovernedUpdateLineageItem.Precedes
  scope : ∀ item ∈ chain, ∀ other ∈ chain, item.scopeDigest = other.scopeDigest
  privacy : ∀ item ∈ chain, ∀ other ∈ chain, item.privacyClass = other.privacyClass

/-- The items of a trail of references, in its order. -/
structure TrailItems (items chain : List GovernedUpdateLineageItem)
    (start : GovernedOwnerRevisionRef) (references : List GovernedOwnerRevisionRef)
    : Prop where
  named : chain.map (·.ownerRevisionRef) = references
  inside : ∀ item ∈ chain, item ∈ items
  first : ∀ item ∈ chain.head?, item.ownerRevisionRef = start
  last : ∀ item ∈ chain.getLast?, item.successor = none
  linked : chain.IsChain GovernedUpdateLineageItem.Precedes
  followed : ∀ fuel, references.length ≤ fuel → followLineage items fuel (some start) = .ok chain

/-- The only item that passes a test. -/
theorem exists_only {α : Type} {test : α → Bool} {items : List α} (one : items.countP test = 1)
    : ∃ found, ∀ a, a ∈ items ∧ test a = true ↔ a = found := by
  rw [List.countP_eq_length_filter] at one
  obtain ⟨found, only⟩ := List.length_eq_one_iff.mp one
  refine ⟨found, fun a => ?_⟩
  rw [← List.mem_filter, only, List.mem_singleton]

section Ordering

variable (input : LineageInput items) (reciprocal : Reciprocal items)

include input reciprocal

theorem exists_trailItems {start : GovernedOwnerRevisionRef}
    {references : List GovernedOwnerRevisionRef}
    (trail : Trail (successorOf items) start references)
    (inside : start ∈ items.map (·.ownerRevisionRef))
    : ∃ chain, TrailItems items chain start references := by
  induction trail with
  | last ends =>
      obtain ⟨item, member, rfl⟩ := List.mem_map.mp inside
      rw [input.successorOf_eq member] at ends
      refine ⟨[item], rfl, by simpa using member, by simp, by simpa using ends, by simp, ?_⟩
      intro fuel enough
      obtain ⟨fuel, rfl⟩ : ∃ less, fuel = less + 1 := ⟨fuel - 1, by simp at enough; omega⟩
      have found := (lookup_eq_some_iff input.distinct).mpr ⟨member, rfl⟩
      simp only [followLineage, found, ends]
      rfl
  | @step _ next _ goes trail ih =>
      obtain ⟨item, member, rfl⟩ := List.mem_map.mp inside
      rw [input.successorOf_eq member] at goes
      obtain ⟨other, listed, same, back⟩ := (reciprocal item member).2 _ goes
      obtain ⟨chain, later⟩ := ih (List.mem_map.mpr ⟨other, listed, same⟩)
      cases chain with
      | nil =>
          have passed := trail.start_mem
          rw [← later.named] at passed
          simp at passed
      | cons first rest =>
          have begins : first.ownerRevisionRef = next := later.first first rfl
          cases List.inj_on_of_nodup_map input.distinct listed (later.inside first (by simp))
            (same.trans begins.symm)
          have precedes : item.Precedes other := ⟨by rw [goes, same], back⟩
          refine ⟨item :: other :: rest, by simp [← later.named], ?_, by simp, ?_,
            List.isChain_cons_cons.mpr ⟨precedes, later.linked⟩, ?_⟩
          · exact List.forall_mem_cons.mpr ⟨member, later.inside⟩
          · simpa using later.last
          · intro fuel enough
            rw [List.length_cons] at enough
            obtain ⟨fuel, rfl⟩ : ∃ less, fuel = less + 1 := ⟨fuel - 1, by omega⟩
            have found := (lookup_eq_some_iff input.distinct).mpr ⟨member, rfl⟩
            simp only [followLineage, found, goes, later.followed fuel (by omega)]
            rfl

/-- Links that go both ways, without a cycle and with one end on either side, make one chain that
the ordering finds.
-/
theorem exists_ordered
    (acyclic : ∀ reference, ¬ TransGen (Follows (successorOf items)) reference reference)
    (ends : SingleEnds items)
    : ∃ chain, orderCompleteLineage items = .ok chain ∧ chain.Perm items
      ∧ (∀ item ∈ chain.head?, item.predecessor = none)
      ∧ (∀ item ∈ chain.getLast?, item.successor = none)
      ∧ chain.IsChain GovernedUpdateLineageItem.Precedes := by
  obtain ⟨head, heads⟩ := exists_only ends.1
  obtain ⟨tail, tails⟩ := exists_only ends.2
  obtain ⟨headMember, headFirst⟩ := (heads head).mpr rfl
  have ended : ∀ reference, Acc (Follows (successorOf items)) reference := by
    intro reference
    refine input.acc_of_not_revisits ?_
    by_contra back
    rw [Bool.not_eq_false] at back
    obtain ⟨cycle, found⟩ := Chains.exists_cycle_of_revisits (by simp) back
    exact acyclic cycle found
  obtain ⟨references, trail⟩ := Chains.exists_trail (ended head.ownerRevisionRef)
  have inside : head.ownerRevisionRef ∈ items.map (·.ownerRevisionRef) :=
    List.mem_map_of_mem headMember
  obtain ⟨chain, ordered⟩ := exists_trailItems input reciprocal trail inside
  have linked : ∀ a ∈ items.map (·.ownerRevisionRef), ∀ b, successorOf items a = some b
      → b ∈ items.map (·.ownerRevisionRef) ∧ predecessorOf items b = some a := by
    intro a listed b goes
    obtain ⟨item, member, rfl, successor⟩ := input.successorOf_eq_some.mp goes
    obtain ⟨other, otherMember, rfl, back⟩ := (reciprocal item member).2 b successor
    exact ⟨List.mem_map_of_mem otherMember, by rw [input.predecessorOf_eq otherMember, back]⟩
  have oneEnd : ∀ a ∈ items.map (·.ownerRevisionRef), ∀ b ∈ items.map (·.ownerRevisionRef),
      successorOf items a = none → successorOf items b = none → a = b := by
    intro a listed b listedAgain endsA endsB
    obtain ⟨item, member, rfl⟩ := List.mem_map.mp listed
    obtain ⟨other, otherMember, rfl⟩ := List.mem_map.mp listedAgain
    rw [input.successorOf_eq member] at endsA
    rw [input.successorOf_eq otherMember] at endsB
    rw [(tails item).mp ⟨member, by simp [endsA]⟩, (tails other).mp ⟨otherMember, by simp [endsB]⟩]
  have first : predecessorOf items head.ownerRevisionRef = none := by
    rw [input.predecessorOf_eq headMember]
    simpa using headFirst
  have covers := trail.covers inside first linked oneEnd fun a _ => ended a
  have distinct : (chain.map (·.ownerRevisionRef)).Nodup := ordered.named ▸ trail.nodup
  have perm : chain.Perm items := by
    refine (List.perm_ext_iff_of_nodup distinct.of_map input.distinct.of_map).mpr fun item => ?_
    refine ⟨ordered.inside item, fun member => ?_⟩
    have passed := covers item.ownerRevisionRef (List.mem_map_of_mem member)
    rw [← ordered.named] at passed
    obtain ⟨other, listed, same⟩ := List.mem_map.mp passed
    exact List.inj_on_of_nodup_map input.distinct (ordered.inside other listed) member same ▸ listed
  refine ⟨chain, ?_, perm, ?_, ordered.last, ordered.linked⟩
  · have found : (sortBy (·.ownerRevisionRef) items).find? (·.predecessor.isNone) = some head := by
      refine find?_eq_some_of_unique ((sortBy_perm _ _).mem_iff.mpr headMember) headFirst ?_
      intro other listed isFirst
      exact (heads other).mp ⟨(sortBy_perm _ _).mem_iff.mp listed, isFirst⟩
    have length : references.length = items.length := by
      rw [← ordered.named, List.length_map, perm.length_eq]
    simp only [orderCompleteLineage, found, Option.map_some,
      ordered.followed (items.length + 1) (by omega), Fallible.ok_bind, Store.require_bind,
      (sortBy_perm _ _).length_eq, perm.length_eq, beq_self_eq_true, if_true]
    rfl
  · intro item isHead
    have same := ordered.first item isHead
    have member := ordered.inside item (List.mem_of_head? isHead)
    cases List.inj_on_of_nodup_map input.distinct member headMember same
    simpa using headFirst

end Ordering

section Converse

variable {chain : List GovernedUpdateLineageItem} (lineage : IsLineage chain)

include lineage

theorem IsLineage.before (member : item ∈ chain) {reference : GovernedOwnerRevisionRef}
    (named : item.predecessor = some reference)
    : ∃ other ∈ chain, other.ownerRevisionRef = reference ∧ other.Precedes item := by
  rcases Chains.head_or_before lineage.linked member with isHead | ⟨other, listed, precedes⟩
  · simp [lineage.first item isHead] at named
  · exact ⟨other, listed, Option.some.inj (precedes.2.symm.trans named), precedes⟩

theorem IsLineage.after (member : item ∈ chain) {reference : GovernedOwnerRevisionRef}
    (named : item.successor = some reference)
    : ∃ other ∈ chain, other.ownerRevisionRef = reference ∧ item.Precedes other := by
  rcases Chains.last_or_after lineage.linked member with isLast | ⟨other, listed, precedes⟩
  · simp [lineage.last item isLast] at named
  · exact ⟨other, listed, Option.some.inj (precedes.1.symm.trans named), precedes⟩

theorem IsLineage.reciprocal : Reciprocal chain := by
  refine fun item member => ⟨fun reference named => ?_, fun reference named => ?_⟩
  · obtain ⟨other, listed, same, precedes⟩ := lineage.before member named
    exact ⟨other, listed, same, precedes.1⟩
  · obtain ⟨other, listed, same, precedes⟩ := lineage.after member named
    exact ⟨other, listed, same, precedes.2⟩

omit lineage in
/-- All but the first of linked items have a predecessor. -/
theorem countP_first {first : GovernedUpdateLineageItem} {rest : List GovernedUpdateLineageItem}
    (linked : (first :: rest).IsChain GovernedUpdateLineageItem.Precedes)
    : rest.countP (·.predecessor.isNone) = 0 := by
  induction rest generalizing first with
  | nil => rfl
  | cons second rest ih =>
      obtain ⟨precedes, later⟩ := List.isChain_cons_cons.mp linked
      simp [ih later, precedes.2]

omit lineage in
/-- All but the last of linked items have a successor. -/
theorem countP_last {first : GovernedUpdateLineageItem} {rest : List GovernedUpdateLineageItem}
    (linked : (first :: rest).IsChain GovernedUpdateLineageItem.Precedes)
    (last : ∀ item ∈ (first :: rest).getLast?, item.successor = none)
    : (first :: rest).countP (·.successor.isNone) = 1 := by
  induction rest generalizing first with
  | nil => simp [last first rfl]
  | cons second rest ih =>
      obtain ⟨precedes, later⟩ := List.isChain_cons_cons.mp linked
      have others := ih later (by simpa using last)
      rw [List.countP_cons, others]
      simp [precedes.1]

theorem IsLineage.singleEnds (nonempty : chain ≠ []) : SingleEnds chain := by
  cases chain with
  | nil => exact absurd rfl nonempty
  | cons first rest =>
      refine ⟨?_, countP_last lineage.linked lineage.last⟩
      rw [List.countP_cons, countP_first lineage.linked]
      simp [lineage.first first rfl]

omit lineage in
theorem trail_of_linked (input : LineageInput items) {first : GovernedUpdateLineageItem}
    {rest : List GovernedUpdateLineageItem} (inside : ∀ item ∈ first :: rest, item ∈ items)
    (linked : (first :: rest).IsChain GovernedUpdateLineageItem.Precedes)
    (last : ∀ item ∈ (first :: rest).getLast?, item.successor = none)
    : Trail (successorOf items) first.ownerRevisionRef
        ((first :: rest).map (·.ownerRevisionRef)) := by
  have here := input.successorOf_eq (inside first (by simp))
  induction rest generalizing first with
  | nil => exact .last (here.trans (last first rfl))
  | cons second rest ih =>
      obtain ⟨precedes, later⟩ := List.isChain_cons_cons.mp linked
      obtain ⟨-, others⟩ := List.forall_mem_cons.mp inside
      refine .step (here.trans precedes.1) ?_
      exact ih others later (by simpa using last) (input.successorOf_eq (others second (by simp)))

theorem IsLineage.acyclic (input : LineageInput chain) (reference : GovernedOwnerRevisionRef)
    : ¬ TransGen (Follows (successorOf chain)) reference reference := by
  intro cycle
  obtain ⟨before, -, goes⟩ := TransGen.tail'_iff.mp cycle
  obtain ⟨item, member, rfl, -⟩ := input.successorOf_eq_some.mp goes
  cases chain with
  | nil => simp at member
  | cons first rest =>
      have trail := trail_of_linked input (fun _ => id) lineage.linked lineage.last
      obtain ⟨tail, later, -⟩ := trail.suffix (List.mem_map_of_mem member)
      exact Chains.not_cycle_of_acc later.acc cycle

/-- An item of a lineage links to another one only. -/
theorem IsLineage.no_failure (input : LineageInput chain) (short : chain.length ≤ depth)
    (kind : MemoryUpdateLineageFailure)
    : ¬ FailurePresent chain depth kind := by
  cases kind with
  | cycle =>
      rintro (⟨item, member, named | named⟩ | ⟨reference, cycle⟩)
      · obtain ⟨other, listed, same, precedes⟩ := lineage.before member named
        cases List.inj_on_of_nodup_map input.distinct listed member same
        refine lineage.acyclic input item.ownerRevisionRef (.single ?_)
        exact (input.successorOf_eq member).trans precedes.1
      · refine lineage.acyclic input item.ownerRevisionRef (.single ?_)
        exact (input.successorOf_eq member).trans named
      · exact lineage.acyclic input reference cycle
  | gap =>
      rintro (broken | ⟨nonempty, several⟩)
      · exact broken lineage.reciprocal
      · exact several (lineage.singleEnds nonempty)
  | scopeMismatch =>
      rintro ⟨item, member, other, listed, -, differ⟩
      exact differ (lineage.scope other listed item member)
  | privacyMismatch =>
      rintro ⟨item, member, other, listed, -, differ⟩
      exact differ (lineage.privacy other listed item member)
  | depthExceeded => exact not_lt.mpr short

end Converse

/-! ## Reports -/

section Reports

variable (input : LineageInput items)

include input

theorem LineageInput.present_iff_of_perm (perm : items.Perm again)
    (kind : MemoryUpdateLineageFailure)
    : FailurePresent items depth kind ↔ FailurePresent again depth kind := by
  have successors : successorOf items = successorOf again := by
    funext reference
    simp only [successorOf, lookup_eq_of_perm input.distinct perm]
  cases kind with
  | cycle => simp only [FailurePresent, successors, perm.mem_iff]
  | gap =>
      have empty : items ≠ [] ↔ again ≠ [] := by
        rw [ne_eq, ne_eq, ← List.length_eq_zero_iff, ← List.length_eq_zero_iff, perm.length_eq]
      simp only [FailurePresent, Reciprocal, SingleEnds, perm.mem_iff, perm.countP_eq, empty]
  | scopeMismatch => simp only [FailurePresent, perm.mem_iff]
  | privacyMismatch => simp only [FailurePresent, perm.mem_iff]
  | depthExceeded => simp only [FailurePresent, perm.length_eq]

theorem LineageInput.detect_eq_of_perm (perm : items.Perm again)
    : detectMemoryUpdateLineageFailures items depth
      = detectMemoryUpdateLineageFailures again depth := by
  have same : ∀ failure, failure ∈ detectMemoryUpdateLineageFailures items depth
      ↔ failure ∈ detectMemoryUpdateLineageFailures again depth := by
    intro failure
    simp only [input.mem_detect, (input.perm perm).mem_detect, input.present_iff_of_perm perm]
  unfold detectMemoryUpdateLineageFailures at same ⊢
  refine contractValidation_congr fun failure => ?_
  have here := same failure
  rwa [mem_contractValidation, mem_contractValidation] at here

theorem LineageInput.detect_reportable
    : ∀ failure ∈ detectMemoryUpdateLineageFailures items depth,
        (reportableLineageFailure failure).isSome = true := by
  intro failure member
  obtain ⟨kind, -, rfl⟩ := input.mem_detect.mp member
  rw [reportable_contract]
  rfl

/-- The kinds that a report lists are those present. -/
theorem LineageInput.mem_failures {kind : MemoryUpdateLineageFailure}
    : kind ∈ (detectMemoryUpdateLineageFailures items depth).filterMap reportableLineageFailure
      ↔ FailurePresent items depth kind := by
  simp only [List.mem_filterMap, input.mem_detect]
  constructor
  · rintro ⟨failure, ⟨other, present, rfl⟩, same⟩
    rw [reportable_contract] at same
    exact Option.some.inj same ▸ present
  · exact fun present => ⟨_, ⟨kind, present, rfl⟩, reportable_contract kind⟩

omit input in
theorem failures_nodup
    : ((detectMemoryUpdateLineageFailures items depth).filterMap
        reportableLineageFailure).Nodup := by
  have distinct : (detectMemoryUpdateLineageFailures items depth).Nodup := by
    refine List.Nodup.filter _ ?_
    decide
  refine distinct.filterMap fun a b kind here there => ?_
  rw [contract_of_reportable here, contract_of_reportable there]

/-- The failures that a report lists, mapped back, are those detected. -/
theorem LineageInput.mem_declared {failure : GovernedContractFailure}
    : failure ∈ ((detectMemoryUpdateLineageFailures items depth).filterMap
          reportableLineageFailure).map lineageFailureToContractFailure
      ↔ failure ∈ detectMemoryUpdateLineageFailures items depth := by
  simp only [List.mem_map, input.mem_failures, input.mem_detect]

theorem LineageInput.failures_isEmpty
    : ((detectMemoryUpdateLineageFailures items depth).filterMap
          reportableLineageFailure).isEmpty
      = (detectMemoryUpdateLineageFailures items depth).isEmpty := by
  rw [← List.isEmpty_map (f := lineageFailureToContractFailure), Bool.eq_iff_iff, List.isEmpty_iff,
    List.isEmpty_iff, List.eq_nil_iff_forall_not_mem, List.eq_nil_iff_forall_not_mem]
  simp only [input.mem_declared]

omit input in
/-- The report on items that were put in order. -/
def lineageReport (items ordered : List GovernedUpdateLineageItem) (revision depth : Nat)
    : MemoryUpdateLineageReport :=
  let failures :=
    (detectMemoryUpdateLineageFailures items depth).filterMap reportableLineageFailure
  { schemaVersion := governedMemoryLifecycleSchemaVersion
    items := ordered
    failures
    manifestRevision := revision
    maxLineageDepth := depth
    complete := failures.isEmpty }

theorem LineageInput.report_validated {ordered : List GovernedUpdateLineageItem} {revision : Nat}
    (perm : ordered.Perm items) (revised : revision ≠ 0) (deep : depth ≠ 0)
    : sameElements (lineageReport items ordered revision depth).validateContract.failures
        (detectMemoryUpdateLineageFailures items depth) = true := by
  have declared : sameElements (((detectMemoryUpdateLineageFailures items depth).filterMap
      reportableLineageFailure).map lineageFailureToContractFailure)
      (detectMemoryUpdateLineageFailures items depth) = true :=
    sameElements_iff.mpr fun _ => input.mem_declared
  have reportable : (detectMemoryUpdateLineageFailures items depth).filter
      (fun failure => (reportableLineageFailure failure).isSome)
        = detectMemoryUpdateLineageFailures items depth :=
    List.filter_eq_self.mpr input.detect_reportable
  simp only [MemoryUpdateLineageReport.validateContract, lineageReport,
    ← input.detect_eq_of_perm perm.symm, reportable, declared, input.failures_isEmpty]
  rw [sameElements_iff]
  intro failure
  simp [mem_contractValidation, revised, deep, mem_failIf]

/-- The report is made of the items in the order of the chain, if there is one, else by
reference.
-/
theorem LineageInput.build_eq {revision : Nat} (revised : revision ≠ 0) (deep : depth ≠ 0)
    {ordered : List GovernedUpdateLineageItem} (perm : ordered.Perm items)
    (arranged : (detectMemoryUpdateLineageFailures items depth = []
        ∧ orderCompleteLineage items = .ok ordered)
      ∨ (detectMemoryUpdateLineageFailures items depth ≠ []
        ∧ ordered = sortBy (·.ownerRevisionRef) items))
    : buildMemoryUpdateLineageReport items revision depth
      = .ok (lineageReport items ordered revision depth) := by
  have positive : (revision != 0 && depth != 0) = true := by simp [revised, deep]
  have reportable : ((detectMemoryUpdateLineageFailures items depth).all fun failure =>
      (reportableLineageFailure failure).isSome) = true :=
    List.all_eq_true.mpr input.detect_reportable
  have validated := input.report_validated perm revised deep
  simp only [buildMemoryUpdateLineageReport, Store.require_bind, positive, if_true,
    Fallible.ok_bind, reportable, List.isEmpty_iff]
  rcases arranged with ⟨none, order⟩ | ⟨some, rfl⟩
  · rw [if_pos none, order]
    exact if_pos validated
  · rw [if_neg some]
    exact if_pos validated

theorem LineageInput.detect_eq_nil
    : detectMemoryUpdateLineageFailures items depth = []
      ↔ ∀ kind, ¬ FailurePresent items depth kind := by
  rw [List.eq_nil_iff_forall_not_mem]
  simp only [input.mem_detect, not_exists, not_and]
  exact ⟨fun none kind present => none _ kind present rfl,
    fun none _ kind present => absurd present (none kind)⟩

/-- Items without a failure are put in the order of their chain. -/
theorem LineageInput.exists_lineage (none : ∀ kind, ¬ FailurePresent items depth kind)
    : ∃ chain, orderCompleteLineage items = .ok chain ∧ chain.Perm items ∧ IsLineage chain := by
  have gap := none .gap
  have cycle := none .cycle
  simp only [FailurePresent, not_or, not_and, not_not, not_exists] at gap cycle
  rcases eq_or_ne items [] with rfl | nonempty
  · exact ⟨[], rfl, .refl _, by simp, by simp, by simp, by simp, by simp⟩
  · obtain ⟨chain, ordered, perm, first, last, linked⟩ :=
      exists_ordered input gap.1 cycle.2 (gap.2 nonempty)
    have neighbours : ∀ item other, item ∈ chain → other ∈ chain → item.Precedes other
        → item.scopeDigest = other.scopeDigest ∧ item.privacyClass = other.privacyClass := by
      intro item other member listed precedes
      have inside := perm.mem_iff.mp member
      have otherInside := perm.mem_iff.mp listed
      constructor
      · by_contra differ
        exact none .scopeMismatch ⟨other, otherInside, item, inside, Or.inl precedes.2, differ⟩
      · by_contra differ
        exact none .privacyMismatch ⟨other, otherInside, item, inside, Or.inl precedes.2, differ⟩
    have uniform := linked.imp_of_mem_imp neighbours
    exact ⟨chain, ordered, perm, first, last, linked,
      Chains.eq_of_neighbours (uniform.imp fun _ _ same => same.1),
      Chains.eq_of_neighbours (uniform.imp fun _ _ same => same.2)⟩

theorem LineageInput.order_eq_of_perm (perm : items.Perm again)
    : orderCompleteLineage items = orderCompleteLineage again := by
  have followed : followLineage items = followLineage again := by
    funext fuel cursor
    induction fuel generalizing cursor with
    | zero => cases cursor <;> rfl
    | succ fuel ih =>
        cases cursor with
        | none => rfl
        | some current => simp only [followLineage, lookup_eq_of_perm input.distinct perm, ih]
  simp only [orderCompleteLineage, sortBy_eq_of_perm input.distinct perm, perm.length_eq, followed]

end Reports

/-- Items in which no failure is detected are such that a report can be made of them. -/
theorem lineageInput_of_detect_eq_nil (none : detectMemoryUpdateLineageFailures items depth = [])
    : LineageInput items := by
  simp only [detectMemoryUpdateLineageFailures, contractValidation_failures,
    List.append_eq_nil_iff, failIf_eq_nil, List.flatMap_eq_nil_iff, itemFailures,
    Bool.not_eq_false', decide_eq_true_eq, Bool.or_eq_false_iff] at none
  obtain ⟨⟨⟨⟨⟨own, distinct⟩, -⟩, -⟩, -⟩, -⟩ := none
  exact ⟨fun item member => (own item member).1.1, fun item member => (own item member).1.2,
    distinct⟩

/-- A complete report lists the items as one chain within the depth. -/
theorem complete_report {revision : Nat} {report : MemoryUpdateLineageReport}
    (built : buildMemoryUpdateLineageReport items revision depth = .ok report)
    (complete : report.complete = true)
    : items.length ≤ depth ∧ report.items.Perm items ∧ IsLineage report.items := by
  simp only [buildMemoryUpdateLineageReport, Store.require_bind, Fallible.ok_bind,
    List.isEmpty_iff] at built
  obtain ⟨-, built⟩ := ite_eq_iff.mp built |>.resolve_right (by simp)
  by_cases none : detectMemoryUpdateLineageFailures items depth = []
  · rw [if_pos none] at built
    obtain ⟨ordered, order, built⟩ := bind_eq_ok.mp built
    split_ifs at built
    obtain rfl := pure_eq_ok.mp built
    have input := lineageInput_of_detect_eq_nil none
    have absent := input.detect_eq_nil.mp none
    obtain ⟨chain, found, perm, lineage⟩ := input.exists_lineage absent
    obtain rfl : chain = ordered := Except.ok.inj (found.symm.trans order)
    exact ⟨not_lt.mp (absent .depthExceeded), perm, lineage⟩
  · -- A failure that is detected and can be reported is listed.
    rw [if_neg none] at built
    split_ifs at built with reportable
    obtain rfl := pure_eq_ok.mp built
    obtain ⟨failure, detected⟩ := List.exists_mem_of_ne_nil _ none
    obtain ⟨kind, named⟩ := Option.isSome_iff_exists.mp (List.all_eq_true.mp reportable _ detected)
    have listed := List.mem_filterMap.mpr ⟨failure, detected, named⟩
    rw [List.isEmpty_iff.mp complete] at listed
    simp at listed

/-- What a report on items says. -/
structure ReportsLineage (items : List GovernedUpdateLineageItem) (depth : Nat)
    (report : MemoryUpdateLineageReport)
    : Prop where
  complete : report.complete = true
    ↔ items = [] ∨ ∃ chain, chain.Perm items ∧ IsLineage chain ∧ items.length ≤ depth
  /-- A complete report lists the chain from head to tail, an incomplete one all items. -/
  listed : report.items.Perm items ∧ (report.complete = true → IsLineage report.items)
  /-- Every kind of failure that is present is listed, once, and no other. -/
  failures : (∀ kind, kind ∈ report.failures ↔ FailurePresent items depth kind)
    ∧ report.failures.Nodup

theorem lineage_report_exact (items : List GovernedUpdateLineageItem) (input : LineageInput items)
    (revision depth : Nat) (revised : revision ≠ 0) (deep : depth ≠ 0)
    : ∃ report, buildMemoryUpdateLineageReport items revision depth = .ok report
      ∧ ReportsLineage items depth report
      ∧ ∀ again, items.Perm again
        → buildMemoryUpdateLineageReport again revision depth = .ok report := by
  have failures : (∀ kind, kind ∈ (detectMemoryUpdateLineageFailures items depth).filterMap
        reportableLineageFailure ↔ FailurePresent items depth kind)
      ∧ ((detectMemoryUpdateLineageFailures items depth).filterMap
        reportableLineageFailure).Nodup :=
    ⟨fun _ => input.mem_failures, failures_nodup⟩
  have complete : ∀ ordered, (lineageReport items ordered revision depth).complete = true
      ↔ ∀ kind, ¬ FailurePresent items depth kind := by
    intro ordered
    rw [← input.detect_eq_nil, ← List.isEmpty_iff, ← input.failures_isEmpty]
    rfl
  by_cases none : ∀ kind, ¬ FailurePresent items depth kind
  · obtain ⟨chain, ordered, perm, lineage⟩ := input.exists_lineage none
    have empty := input.detect_eq_nil.mpr none
    refine ⟨_, input.build_eq revised deep perm (Or.inl ⟨empty, ordered⟩),
      ⟨?_, ⟨perm, fun _ => lineage⟩, failures⟩, fun again same => ?_⟩
    · refine ⟨fun _ => Or.inr ⟨chain, perm, lineage, not_lt.mp (none .depthExceeded)⟩, fun _ => ?_⟩
      exact (complete chain).mpr none
    · have rebuilt := (input.perm same).build_eq revised deep (perm.trans same)
        (Or.inl ⟨(input.detect_eq_of_perm same).symm.trans empty,
          (input.order_eq_of_perm same).symm.trans ordered⟩)
      rw [rebuilt, lineageReport, lineageReport, input.detect_eq_of_perm same]
  · have found : detectMemoryUpdateLineageFailures items depth ≠ [] :=
      fun empty => none (input.detect_eq_nil.mp empty)
    refine ⟨_, input.build_eq revised deep (sortBy_perm _ _) (Or.inr ⟨found, rfl⟩),
      ⟨?_, ⟨sortBy_perm _ _, fun whole => absurd ((complete _).mp whole) none⟩, failures⟩,
      fun again same => ?_⟩
    · rw [complete]
      refine ⟨fun whole => absurd whole none, ?_⟩
      rintro (rfl | ⟨chain, perm, lineage, short⟩) kind
      · exact IsLineage.no_failure ⟨by simp, by simp, by simp, by simp, by simp⟩ input (by simp) kind
      · rw [← (input.perm perm.symm).present_iff_of_perm perm]
        exact lineage.no_failure (input.perm perm.symm) (perm.length_eq ▸ short) kind
    · have rebuilt := (input.perm same).build_eq revised deep (sortBy_perm _ _)
        (Or.inr ⟨input.detect_eq_of_perm same ▸ found, rfl⟩)
      rw [rebuilt, lineageReport, lineageReport, input.detect_eq_of_perm same,
        sortBy_eq_of_perm input.distinct same]

/-- Three revisions of one owner, the last one first. -/
def sampleItems : List GovernedUpdateLineageItem :=
  let digest := String.ofList (List.replicate 64 '0')
  let reference := fun revision : Nat =>
    (⟨⟨.longTerm, "a"⟩, revision⟩ : GovernedOwnerRevisionRef)
  [⟨reference 3, some (reference 2), none, digest, .publicRuntime, digest⟩,
    ⟨reference 1, none, some (reference 2), digest, .publicRuntime, digest⟩,
    ⟨reference 2, some (reference 1), some (reference 3), digest, .publicRuntime, digest⟩]

theorem sampleItems_reported
    : (∃ report, buildMemoryUpdateLineageReport sampleItems 1 3 = .ok report
        ∧ ReportsLineage sampleItems 3 report
        ∧ ∀ again, sampleItems.Perm again
          → buildMemoryUpdateLineageReport again 1 3 = .ok report)
      ∧ (buildMemoryUpdateLineageReport sampleItems 1 3).toOption.map
          (fun report => (report.complete, report.items.map (·.ownerRevisionRef.ownerRevision)))
        = some (true, [1, 2, 3]) := by
  refine ⟨lineage_report_exact sampleItems ⟨?_, ?_, ?_⟩ 1 3 (by decide) (by decide), ?_⟩
  all_goals decide +kernel

end BeetleMemory.LongTerm

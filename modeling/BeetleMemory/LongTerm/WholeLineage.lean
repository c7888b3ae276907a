import BeetleMemory.LongTerm.HistoricalRecall
import BeetleMemory.LongTerm.LineageFacts
import BeetleMemory.LongTerm.ManifestFacts
import BeetleMemory.Lib.Worklist

/-! A granted recall authority carries the whole lineage of what was selected: the revisions that
its links lead to, as one chain, with the control revisions of that chain and no others.
-/

namespace BeetleMemory.LongTerm

open Keyed
open Worklist (Explored)
open Fallible (bind_eq_ok pure_eq_ok)

/-! ## Search -/

section Search

variable {linked : GovernedOwnerRevisionRef → Option (List GovernedOwnerRevisionRef)}
variable {start : GovernedOwnerRevisionRef → Prop} {steps : Nat}
variable {connected frontier result : List GovernedOwnerRevisionRef}

/-- The first reference is linked to the second. -/
def LinksTo (linked : GovernedOwnerRevisionRef → Option (List GovernedOwnerRevisionRef))
    (a b : GovernedOwnerRevisionRef)
    : Prop :=
  ∃ found, linked a = some found ∧ b ∈ found

/-- A search that ends has found what can be reached, and all of it is there. -/
theorem searchConnected_eq_ok
    (explored : Explored start (LinksTo linked) (· ∈ connected) (· ∈ frontier))
    (present : ∀ a ∈ connected, (linked a).isSome = true)
    (ended : searchConnected linked steps connected frontier = .ok (some result))
    : (∀ a, a ∈ result ↔ Worklist.Reached start (LinksTo linked) a)
      ∧ (∀ a ∈ result, (linked a).isSome = true) ∧ result.Pairwise (· < ·) := by
  fun_induction searchConnected linked steps connected frontier with
  | case1 steps connected =>
      obtain rfl := Option.some.inj (Except.ok.inj ended)
      refine ⟨fun a => ?_, fun a member => present a (mem_distinctSorted.mp member),
        distinctSorted_sorted _⟩
      rw [mem_distinctSorted]
      exact explored.finish (by simp) a
  | case2 => cases ended
  | case3 steps connected current frontier known ih =>
      refine ih (explored.drop fun b => ?_) present ended
      have here : current ∈ connected := by simpa using known
      simp only [List.mem_cons]
      constructor
      · rintro (visited | pending)
        · exact Or.inl visited
        · exact Or.inr (Or.inr pending)
      · rintro (visited | rfl | pending)
        · exact Or.inl visited
        · exact Or.inl here
        · exact Or.inr pending
  | case4 => cases ended
  | case5 steps connected current frontier fresh found there ih =>
      refine ih (explored.visit (a := current) (by simp) (fun b => ?_) fun b => ?_) ?_ ended
      · rw [List.mem_cons, or_comm]
      · have links : LinksTo linked current b ↔ b ∈ found := by simp [LinksTo, there]
        simp only [List.mem_cons, mem_distinctSorted, List.mem_append, links]
        tauto
      · rintro a (_ | ⟨_, member⟩)
        · simp [there]
        · exact present a member

/-- Two steps for each reference that can still be visited and one for each pending one are
enough, whatever the links are.
-/
theorem searchConnected_ends {everything : List GovernedOwnerRevisionRef}
    (known : ∀ a found, linked a = some found → a ∈ everything ∧ found.length ≤ 2)
    (enough : 2 * (everything.filter (· ∉ connected)).length + frontier.length ≤ steps)
    : searchConnected linked steps connected frontier ≠ .ok none := by
  fun_induction searchConnected linked steps connected frontier with
  | case1 => simp
  | case2 => simp at enough
  | case3 steps connected current frontier _ ih =>
      refine ih ?_
      simp only [List.length_cons] at enough
      omega
  | case4 => simp
  | case5 steps connected current frontier fresh found there ih =>
      obtain ⟨inside, few⟩ := known current found there
      refine ih ?_
      have fewer : (everything.filter (· ∉ current :: connected)).length
          < (everything.filter (· ∉ connected)).length := by
        have again : everything.filter (· ∉ current :: connected)
            = (everything.filter (· ∉ connected)).filter (· ≠ current) := by
          rw [List.filter_filter]
          exact List.filter_congr fun a _ => by simp [not_or]
        rw [again, List.length_filter_lt_length_iff_exists]
        exact ⟨current, by simpa [inside] using fresh, by simp⟩
      have added := length_distinctSorted_le (found ++ frontier)
      simp only [List.length_cons, List.length_append] at enough added
      omega

end Search

variable {D : Type} {digests : VersionDigests D} {privacyClass : D → MemoryPrivacyClass}

/-! ## Control revisions -/

section Controls

variable {materials : List (LongTermMemoryVersionMaterial D)}
variable {controls : List LongTermMemoryControlRevision}
variable {seen : List GovernedOwnerRevisionRef} {revision : LongTermMemoryControlRevision}

/-- The successor of a bound control revision names its predecessor. -/
theorem bindControl_eq_ok {binding : LongTermMemoryVersionTransitionBinding}
    (bound : bindControl digests materials seen revision = .ok binding)
    : revision.transition.predecessor ∉ seen
      ∧ ∀ successor ∈ revision.transition.successor, ∃ material ∈ materials,
        material.ownerRevisionRef = successor
          ∧ material.origin.predecessor = some revision.transition.predecessor := by
  simp only [bindControl] at bound
  obtain ⟨-, -, bound⟩ := bind_eq_ok.mp bound
  split at bound
  case h_1 => cases bound
  case h_2 predecessor _ =>
    obtain ⟨successor, found, bound⟩ := bind_eq_ok.mp bound
    obtain ⟨_, fits, -⟩ := bind_eq_ok.mp bound
    simp only [Store.require_eq_ok, Bool.and_eq_true, Bool.not_eq_true',
      List.contains_eq_mem, decide_eq_false_iff_not] at fits
    obtain ⟨⟨-, accepted⟩, fresh⟩ := fits
    refine ⟨fresh, fun reference named => ?_⟩
    rcases successorFailures_eq_nil.mp (validateContract_accepted_iff.mp accepted).successor with
      ⟨none, -⟩ | ⟨other, material, same, rfl, continues⟩
    · simp [none] at named
    · obtain rfl : other = reference := Option.some.inj (same.symm.trans named)
      simp only [controlSuccessor, same] at found
      split at found
      case h_1 => cases found
      case h_2 there =>
        cases found
        exact ⟨material, (lookup_some there).1, continues.2.1, continues.2.2.2.2.1⟩

theorem bindControls_eq_ok {bindings : List LongTermMemoryVersionTransitionBinding}
    (bound : bindControls digests materials seen controls = .ok bindings)
    : (controls.map (·.transition.predecessor)).Nodup
      ∧ (∀ control ∈ controls, control.transition.predecessor ∉ seen)
      ∧ ∀ control ∈ controls, ∀ successor ∈ control.transition.successor,
        ∃ material ∈ materials, material.ownerRevisionRef = successor
          ∧ material.origin.predecessor = some control.transition.predecessor := by
  induction controls generalizing seen bindings with
  | nil => simp
  | cons control rest ih =>
      obtain ⟨binding, here, bound⟩ := bind_eq_ok.mp bound
      obtain ⟨others, later, -⟩ := bind_eq_ok.mp bound
      obtain ⟨fresh, back⟩ := bindControl_eq_ok here
      obtain ⟨distinct, unseen, linked⟩ := ih later
      simp only [List.mem_cons, not_or] at unseen
      refine ⟨?_, ?_, List.forall_mem_cons.mpr ⟨back, linked⟩⟩
      · refine List.nodup_cons.mpr ⟨fun again => ?_, distinct⟩
        obtain ⟨other, member, same⟩ := List.mem_map.mp again
        exact (unseen other member).1 same
      · exact List.forall_mem_cons.mpr ⟨fresh, fun other member => (unseen other member).2⟩

end Controls

/-! ## Selection -/

/-- What the loop selects is one of the materials, and its validity contains the time. -/
theorem selectContaining_eq_some
    {read : LongTermMemoryVersionMaterial D → Except Store.Error GovernedOwnerValidity}
    {time : Nat} {owned : List (LongTermMemoryVersionMaterial D)}
    {selected : Option (LongTermMemoryVersionReadProjection D)}
    {projection : LongTermMemoryVersionReadProjection D}
    (found : selectContaining read time selected owned = .ok (some projection))
    : selected = some projection
      ∨ (projection.material ∈ owned ∧ read projection.material = .ok projection.validity
        ∧ projection.validity.contains time = true) := by
  induction owned generalizing selected with
  | nil => exact Or.inl (Except.ok.inj found)
  | cons material rest ih =>
      obtain ⟨validity, here, found⟩ := bind_eq_ok.mp found
      split_ifs at found with contains taken
      · rcases ih found with same | ⟨member, later⟩
        · obtain rfl := Option.some.inj same
          exact Or.inr ⟨List.mem_cons_self, here, contains⟩
        · exact Or.inr ⟨List.mem_cons_of_mem _ member, later⟩
      · rcases ih found with same | ⟨member, later⟩
        · exact Or.inl same
        · exact Or.inr ⟨List.mem_cons_of_mem _ member, later⟩

theorem retainedValidity_eq_ok {digest : LongTermMemoryVersionDigestInput D → String}
    {head : LongTermMemoryHeadManifest} {materials : List (LongTermMemoryVersionMaterial D)}
    {transitions : List GovernedOwnerTransition} {material : LongTermMemoryVersionMaterial D}
    {validity : GovernedOwnerValidity}
    (read : retainedValidity digest head materials transitions material = .ok validity)
    : validity = validityOf transitions material := by
  simp only [retainedValidity, projectLongTermOwnerValidity, Store.require_bind] at read
  cases found : transitionOf transitions material
  all_goals
    simp only [found] at read
    split_ifs at read
    simp only [validityOf, found]
    exact (pure_eq_ok.mp read).symm

/-- The selection as of a time is a revision of the head's owner that holds then. -/
theorem selectAsOf_eq_some {digest : LongTermMemoryVersionDigestInput D → String}
    {head : LongTermMemoryHeadManifest} {materials : List (LongTermMemoryVersionMaterial D)}
    {transitions : List GovernedOwnerTransition} {time maxRetained : Nat}
    {projection : LongTermMemoryVersionReadProjection D}
    (found : selectLongTermVersionAsOf digest head materials transitions time maxRetained
      = .ok (some projection))
    : projection.material ∈ ownerMaterials head.ownerRef materials
      ∧ projection.validity = validityOf transitions projection.material
      ∧ projection.validity.contains time = true := by
  simp only [selectLongTermVersionAsOf, Store.require_bind] at found
  split_ifs at found
  rcases selectContaining_eq_some found with none | ⟨member, read, contains⟩
  · cases none
  · exact ⟨member, retainedValidity_eq_ok read, contains⟩

/-! ## Lineage -/

/-- A material of the scope names the second revision as its predecessor, or the control revision
that ends the first names it as its successor.
-/
def HistoricalScope.Links (scope : HistoricalScope D) (a b : GovernedOwnerRevisionRef) : Prop :=
  ∃ material ∈ scope.materials, material.ownerRevisionRef = a
    ∧ (material.origin.predecessor = some b
      ∨ ∃ control ∈ scope.controls, control.transition.predecessor = a
        ∧ control.transition.successor = some b)

/-- What a recall is granted with: everything that is linked to the revision selected. -/
structure CarriesLineage (privacyClass : D → MemoryPrivacyClass) (scope : HistoricalScope D)
    (owner : GovernedMemoryOwnerRef) (asOfTime maxLineageDepth : Nat)
    (authority : LongTermHistoricalRecallAuthority D)
    : Prop where
  selected : authority.projection.material ∈ ownerMaterials owner scope.materials
  valid : authority.projection.validity
      = validityOf (scope.controls.map (·.transition)) authority.projection.material
    ∧ authority.projection.validity.contains asOfTime = true
  /-- The materials are those of the revisions that the links lead to, each once. -/
  connected : ∀ material, material ∈ authority.connectedMaterials
    ↔ material ∈ scope.materials
      ∧ Worklist.Reached (· = authority.projection.material.ownerRevisionRef) scope.Links
        material.ownerRevisionRef
  distinct : (authority.connectedMaterials.map (·.ownerRevisionRef)).Nodup
  /-- No link leads to a revision without a material. -/
  present : ∀ reference,
    Worklist.Reached (· = authority.projection.material.ownerRevisionRef) scope.Links reference
      → ∃ material ∈ authority.connectedMaterials, material.ownerRevisionRef = reference
  /-- A revision whose successor is linked is linked itself. -/
  inward : ∀ control ∈ scope.controls, ∀ material ∈ authority.connectedMaterials,
    control.transition.successor = some material.ownerRevisionRef
      → ∃ before ∈ authority.connectedMaterials,
        before.ownerRevisionRef = control.transition.predecessor
  /-- The report lists them as one chain, from the first to the last. -/
  chain : authority.lineageReport.items.Perm (authority.connectedMaterials.map
      (lineageItem privacyClass scope.manifest.closureDigest scope.controls))
    ∧ IsLineage authority.lineageReport.items
  privacy : ∀ material ∈ authority.connectedMaterials, ∀ other ∈ authority.connectedMaterials,
    privacyClass material.governedContent.details = privacyClass other.governedContent.details
  short : authority.connectedMaterials.length ≤ maxLineageDepth
  controls : ∀ control, control ∈ authority.connectedControlRevisions
    ↔ control ∈ scope.controls ∧ ∃ material ∈ authority.connectedMaterials,
      material.ownerRevisionRef = control.transition.predecessor

section Lineage

variable {scope : HistoricalScope D}

theorem controlledSuccessor_eq_some
    (once : (scope.controls.map (·.transition.predecessor)).Nodup) {a b : GovernedOwnerRevisionRef}
    : controlledSuccessor scope.controls a = some b
      ↔ ∃ control ∈ scope.controls, control.transition.predecessor = a
        ∧ control.transition.successor = some b := by
  simp only [controlledSuccessor, controlOf, Option.bind_eq_some_iff, lookup_eq_some_iff once,
    and_assoc]

/-- The search follows the links of the scope. -/
theorem linksTo_linkedRefs (distinct : (scope.materials.map (·.ownerRevisionRef)).Nodup)
    (once : (scope.controls.map (·.transition.predecessor)).Nodup) (a b : GovernedOwnerRevisionRef)
    : LinksTo (linkedRefs scope.materials scope.controls) a b ↔ scope.Links a b := by
  simp only [LinksTo, linkedRefs, Option.map_eq_some_iff, lookup_eq_some_iff distinct,
    HistoricalScope.Links, ← controlledSuccessor_eq_some once]
  constructor
  · rintro ⟨_, ⟨material, ⟨member, same⟩, rfl⟩, link⟩
    exact ⟨material, member, same, by simpa using link⟩
  · rintro ⟨material, member, same, link⟩
    exact ⟨_, ⟨material, ⟨member, same⟩, rfl⟩, by simpa using link⟩

/-- The search of a scope ends, whatever its links are. -/
theorem search_ends (scope : HistoricalScope D) (start : GovernedOwnerRevisionRef)
    : searchConnected (linkedRefs scope.materials scope.controls) (searchSteps scope.materials) []
        [start] ≠ .ok none := by
  have known : ∀ a found, linkedRefs scope.materials scope.controls a = some found
      → a ∈ scope.materials.map (·.ownerRevisionRef) ∧ found.length ≤ 2 := by
    intro a found here
    obtain ⟨material, there, rfl⟩ := Option.map_eq_some_iff.mp here
    obtain ⟨member, same⟩ := lookup_some there
    refine ⟨List.mem_map.mpr ⟨material, member, same⟩, ?_⟩
    cases material.origin.predecessor <;> cases controlledSuccessor scope.controls a <;> simp
  exact searchConnected_ends known (by simp [searchSteps])

/-- The materials of references that are all there. -/
theorem mapM_lookup_eq_ok {materials found : List (LongTermMemoryVersionMaterial D)}
    {references : List GovernedOwnerRevisionRef} {error : Store.Error}
    (read : (references.mapM fun reference =>
      match lookup (·.ownerRevisionRef) materials reference with
      | none => Except.error error
      | some material => .ok material) = .ok found)
    : found.map (·.ownerRevisionRef) = references ∧ ∀ material ∈ found, material ∈ materials := by
  have each := Fallible.mapM_eq_ok.mp read
  clear read
  induction each with
  | nil => simp
  | @cons reference material references found here _ ih =>
      split at here
      case h_1 => cases here
      case h_2 there =>
        obtain rfl := Except.ok.inj here
        obtain ⟨member, same⟩ := lookup_some there
        exact ⟨by rw [List.map_cons, same, ih.1], List.forall_mem_cons.mpr ⟨member, ih.2⟩⟩

/-- The lineage around a selection over links that fit the materials. -/
theorem connectLineage_eq_ok {projection : LongTermMemoryVersionReadProjection D} {depth : Nat}
    {authority : LongTermHistoricalRecallAuthority D} {owner : GovernedMemoryOwnerRef}
    {asOfTime : Nat}
    (distinct : (scope.materials.map (·.ownerRevisionRef)).Nodup)
    (once : (scope.controls.map (·.transition.predecessor)).Nodup)
    (back : ∀ control ∈ scope.controls, ∀ successor ∈ control.transition.successor,
      ∃ material ∈ scope.materials, material.ownerRevisionRef = successor
        ∧ material.origin.predecessor = some control.transition.predecessor)
    (selected : projection.material ∈ ownerMaterials owner scope.materials)
    (valid : projection.validity
        = validityOf (scope.controls.map (·.transition)) projection.material
      ∧ projection.validity.contains asOfTime = true)
    (granted : connectLineage privacyClass scope projection depth = .ok authority)
    : CarriesLineage privacyClass scope owner asOfTime depth authority := by
  obtain ⟨searched, search, granted⟩ := bind_eq_ok.mp granted
  cases searched with
  | none => cases granted
  | some references =>
      obtain ⟨materials, read, granted⟩ := bind_eq_ok.mp granted
      obtain ⟨report, built, granted⟩ := bind_eq_ok.mp granted
      obtain ⟨_, complete, granted⟩ := bind_eq_ok.mp granted
      obtain rfl := pure_eq_ok.mp granted
      have links : LinksTo (linkedRefs scope.materials scope.controls) = scope.Links := by
        funext a b
        exact propext (linksTo_linkedRefs distinct once a b)
      have begun : Explored (· = projection.material.ownerRevisionRef)
          (LinksTo (linkedRefs scope.materials scope.controls)) (· ∈ [])
          (· ∈ [projection.material.ownerRevisionRef]) :=
        Explored.begin (by simp) (by simp)
      obtain ⟨reached, -, sorted⟩ := searchConnected_eq_ok begun (by simp) search
      rw [links] at reached
      obtain ⟨named, inside⟩ := mapM_lookup_eq_ok read
      have listed : ∀ reference, reference ∈ references
          ↔ ∃ material ∈ materials, material.ownerRevisionRef = reference := by
        simp [← named]
      have member : ∀ material, material ∈ materials
          ↔ material ∈ scope.materials ∧ material.ownerRevisionRef ∈ references := by
        refine fun material => ⟨fun here => ⟨inside _ here, (listed _).mpr ⟨_, here, rfl⟩⟩, ?_⟩
        rintro ⟨there, here⟩
        obtain ⟨other, found, same⟩ := (listed _).mp here
        exact List.inj_on_of_nodup_map distinct (inside _ found) there same ▸ found
      obtain ⟨short, perm, lineage⟩ := complete_report built (Store.require_eq_ok.mp complete)
      refine ⟨selected, valid, ?_, ?_, ?_, ?_, ⟨perm, lineage⟩, ?_, by simpa using short, ?_⟩
      · simpa only [reached] using member
      · exact named ▸ sorted.imp ne_of_lt
      · exact fun reference here => (listed _).mp ((reached _).mpr here)
      · intro control controlled material here successor
        obtain ⟨other, found, same, before⟩ := back control controlled _ successor
        obtain rfl : other = material :=
          List.inj_on_of_nodup_map distinct found (inside _ here) same
        refine (listed _).mp ((reached _).mpr ?_)
        exact ((reached _).mp ((member _).mp here).2).next ⟨other, found, rfl, Or.inl before⟩
      · intro material here other there
        exact lineage.privacy _ (perm.mem_iff.mpr (List.mem_map_of_mem here)) _
          (perm.mem_iff.mpr (List.mem_map_of_mem there))
      · intro control
        simp only [List.mem_filterMap, controlOf, lookup_eq_some_iff once, ← listed]
        constructor
        · rintro ⟨_, here, found, same⟩
          exact ⟨found, same ▸ here⟩
        · rintro ⟨found, here⟩
          exact ⟨_, here, found, rfl⟩

end Lineage

/-- The digests of the sample chain, all other documents alike. -/
def plainDigests : VersionDigests Unit :=
  let zeros := String.ofList (List.replicate 64 '0')
  { chainDigests with
    control := fun _ => zeros
    head := fun _ => zeros
    closure := fun _ => zeros
    text := fun _ _ => zeros
    control_hex := fun _ => by decide
    text_hex := fun _ _ => by decide }

/-- The correction that ends a revision of the sample owner. -/
def sampleControl (revision : Nat) : LongTermMemoryControlRevision :=
  let input : LongTermMemoryControlDigestInput :=
    { schemaVersion := longTermControlSchemaVersion
      revisionId := "r"
      memorySpaceId := "s"
      factualOwnerId := "s"
      operation := .correct
      basis := .explicitControl
      invalidationReasonCode := none
      transition :=
        { predecessor := ⟨sampleOwner, revision⟩
          terminatedAt := 10 * (revision + 1)
          termination := .corrected
          successor := some ⟨sampleOwner, revision + 1⟩ }
      predecessorMaterialDigest := (sampleMaterial revision (10 * revision)).contentDigest
      successorMaterialDigest :=
        some (sampleMaterial (revision + 1) (10 * (revision + 1))).contentDigest
      governedEvidenceRefs := []
      reason := "r"
      actorSubjectId := none
      createdAt := 1 }
  { input with contentDigest := plainDigests.control input }

/-- Two revisions of the sample owner with the correction between them. -/
def sampleScope : Except Store.Error (HistoricalScope Unit) := do
  let materials := [sampleMaterial 1 10, sampleMaterial 2 20]
  let controls := [sampleControl 1]
  let transitionBindings ← bindControls plainDigests materials [] controls
  let heads := [sampleHead (sampleMaterial 1 10) (sampleMaterial 2 20)]
  let manifest ← LongTermMemoryVersionScopeManifest.build plainDigests "s" "s" 1
    { heads, materials, transitions := controls.map (·.transition), transitionBindings } 2
  return { manifest, heads, materials, controls }

/-- The revision that is recalled, and those of its lineage. -/
def recalledRevisions (authority : LongTermHistoricalRecallAuthority D) : Nat × List Nat :=
  (authority.projection.material.ownerRevision,
    authority.connectedMaterials.map fun material => material.ownerRevision)

end BeetleMemory.LongTerm

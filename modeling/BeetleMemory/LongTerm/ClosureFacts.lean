import BeetleMemory.LongTerm.Closure

/-! What the validations accept, stated once for each of them: a material, a transition between
two materials, a head, and the closure of a whole scope.
-/

namespace BeetleMemory.LongTerm

open Keyed

variable {D : Type} {digest : LongTermMemoryVersionDigestInput D → String}

/-- The consecutive pairs of a list all stand in a relation exactly when the list is a chain. -/
theorem forall_mem_pairs {α : Type} {relation : α → α → Prop} {items : List α}
    : (∀ pair ∈ pairs items, relation pair.1 pair.2) ↔ items.IsChain relation := by
  induction items with
  | nil => simp [pairs]
  | cons a rest ih =>
      cases rest with
      | nil => simp [pairs]
      | cons b rest =>
          simp only [pairs, List.tail_cons] at ih
          simp [pairs, List.isChain_cons_cons, ← ih]

/-! ## Materials and transitions -/

namespace LongTermMemoryVersionMaterial

/-- The failures of a material are empty exactly when it is accepted. -/
theorem failures_eq_nil {material : LongTermMemoryVersionMaterial D}
    : (material.validateContract digest).failures = []
      ↔ (material.validateContract digest).accepted = true := by
  simp only [validateContract, contractValidation_failures, contractValidation_accepted]

theorem ref_isValid_of_accepted {material : LongTermMemoryVersionMaterial D}
    (accepted : (material.validateContract digest).accepted = true)
    : material.ownerRevisionRef.isValid = true := by
  simp only [validateContract, contractValidation_accepted, List.append_eq_nil_iff,
    failIf_eq_nil, Bool.or_eq_false_iff, Bool.not_eq_false'] at accepted
  tauto

theorem origin_of_accepted {material : LongTermMemoryVersionMaterial D}
    (accepted : (material.validateContract digest).accepted = true)
    : (∀ predecessor ∈ material.origin.predecessor, predecessor.isValid = true)
      ∧ material.origin.predecessor ≠ some material.ownerRevisionRef
      ∧ LongTermMemoryVersionOrigin.lineageFailures material.ownerRevisionRef
          material.origin.predecessor = [] := by
  simp only [validateContract, contractValidation_accepted, List.append_eq_nil_iff,
    LongTermMemoryVersionOrigin.validateFor, contractValidation_failures] at accepted
  obtain ⟨⟨⟨⟨⟨⟨-, ⟨⟨valid, loop⟩, lineage⟩⟩, -⟩, -⟩, -⟩, -⟩, -⟩ := accepted
  refine ⟨fun predecessor found => ?_, by simpa using loop, lineage⟩
  simp only [failIf_eq_nil, Bool.or_eq_false_iff, found.out, Option.any_some] at valid
  simpa using valid.2

end LongTermMemoryVersionMaterial

/-- The successor a transition asks for, and the material that plays it. -/
def GovernedOwnerTransition.Continues (digest : LongTermMemoryVersionDigestInput D → String)
    (transition : GovernedOwnerTransition) (predecessor : LongTermMemoryVersionMaterial D)
    (reference : GovernedOwnerRevisionRef) (successor : LongTermMemoryVersionMaterial D)
    : Prop :=
  (successor.validateContract digest).accepted = true
    ∧ successor.ownerRevisionRef = reference
    ∧ successor.memorySpaceId = predecessor.memorySpaceId
    ∧ successor.factualOwnerId = predecessor.factualOwnerId
    ∧ successor.origin.predecessor = some transition.predecessor
    ∧ successor.origin.validFrom = transition.terminatedAt

/-- The successor side of a transition is accepted when both sides name none, or when the
material found is the one named.
-/
theorem successorFailures_eq_nil {transition : GovernedOwnerTransition}
    {predecessor : LongTermMemoryVersionMaterial D}
    {found : Option (LongTermMemoryVersionMaterial D)}
    : transition.successorFailures digest predecessor found = []
      ↔ (transition.successor = none ∧ found = none)
        ∨ ∃ reference successor, transition.successor = some reference
            ∧ found = some successor
            ∧ transition.Continues digest predecessor reference successor := by
  cases found with
  | none => cases named : transition.successor <;>
      simp [GovernedOwnerTransition.successorFailures, named]
  | some successor =>
      cases named : transition.successor with
      | none => simp [GovernedOwnerTransition.successorFailures, named]
      | some reference =>
          simp [GovernedOwnerTransition.successorFailures, named,
            GovernedOwnerTransition.Continues,
            LongTermMemoryVersionMaterial.failures_eq_nil, and_assoc]

/-- What an accepted transition says about the material it ends. -/
structure GovernedOwnerTransition.Bound (digest : LongTermMemoryVersionDigestInput D → String)
    (transition : GovernedOwnerTransition) (predecessor : LongTermMemoryVersionMaterial D)
    (found : Option (LongTermMemoryVersionMaterial D))
    : Prop where
  material : (predecessor.validateContract digest).accepted = true
  valid : transition.predecessor.isValid = true
  ends : transition.predecessor = predecessor.ownerRevisionRef
  after : predecessor.origin.validFrom < transition.terminatedAt
  successorValid : ∀ successor ∈ transition.successor, successor.isValid = true
  successor : transition.successorFailures digest predecessor found = []
  termination : transition.terminationFailures found = []

theorem validateContract_accepted_iff {transition : GovernedOwnerTransition}
    {predecessor : LongTermMemoryVersionMaterial D}
    {found : Option (LongTermMemoryVersionMaterial D)}
    : (transition.validateContract digest predecessor found).accepted = true
      ↔ transition.Bound digest predecessor found := by
  simp only [GovernedOwnerTransition.validateContract, contractValidation_accepted,
    List.append_eq_nil_iff, failIf_eq_nil, LongTermMemoryVersionMaterial.failures_eq_nil]
  constructor
  · rintro ⟨⟨⟨⟨⟨material, ends⟩, after⟩, successorValid⟩, successor⟩, termination⟩
    simp only [Bool.or_eq_false_iff, Bool.not_eq_false', bne_eq_false_iff_eq] at ends
    refine ⟨material, ends.1, ends.2, by simpa using after, fun reference named => ?_,
      successor, termination⟩
    simpa [named.out] using successorValid
  · intro bound
    refine ⟨⟨⟨⟨⟨bound.material, ?_⟩, ?_⟩, ?_⟩, bound.successor⟩, bound.termination⟩
    · simp [bound.valid, ← bound.ends]
    · simpa using bound.after
    · cases named : transition.successor with
      | none => rfl
      | some reference => simp [bound.successorValid reference named]

theorem transition_failures_eq_nil {transition : GovernedOwnerTransition}
    {predecessor : LongTermMemoryVersionMaterial D}
    {found : Option (LongTermMemoryVersionMaterial D)}
    : (transition.validateContract digest predecessor found).failures = []
      ↔ transition.Bound digest predecessor found := by
  rw [← validateContract_accepted_iff]
  simp only [GovernedOwnerTransition.validateContract, contractValidation_failures,
    contractValidation_accepted]

/-! ## Heads -/

namespace LongTermMemoryHeadManifest

theorem failures_eq_nil {head : LongTermMemoryHeadManifest}
    : head.validateContract.failures = [] ↔ head.validateContract.accepted = true := by
  simp only [validateContract, contractValidation_failures, contractValidation_accepted]

/-- An accepted head lists its revisions in increasing order up to the current one, and its
terminal reference names the current one.
-/
structure Sound (head : LongTermMemoryHeadManifest) : Prop where
  increasing : (head.retainedRevisionDigests.map (·.ownerRevision)).Pairwise (· < ·)
  current : (head.retainedRevisionDigests.map (·.ownerRevision)).getLast?
    = some head.currentRevision
  terminal : ∀ reference ∈ head.terminalTransitionRef,
    reference = ⟨head.ownerRef, head.currentRevision⟩

theorem sound_of_accepted {head : LongTermMemoryHeadManifest}
    (accepted : head.validateContract.accepted = true)
    : head.Sound := by
  simp only [validateContract, contractValidation_accepted, List.append_eq_nil_iff,
    failIf_eq_nil, Bool.or_eq_false_iff, bne_eq_false_iff_eq] at accepted
  obtain ⟨-, ⟨⟨current, increasing⟩, terminal⟩⟩ := accepted
  refine ⟨?_, current, fun reference named => ?_⟩
  · apply List.IsChain.pairwise
    apply forall_mem_pairs.mp
    simpa [List.any_eq_false] using increasing
  · simp only [named.out, Option.any_some, Bool.or_eq_false_iff, bne_eq_false_iff_eq] at terminal
    cases reference
    simp_all

end LongTermMemoryHeadManifest

/-! ## The closure of a scope -/

/-- The insertion loop accepts when every item is in order and no key comes twice. -/
theorem insertionFailures_eq_nil {α κ : Type} [DecidableEq κ]
    {own : α → List GovernedContractFailure} {inside : α → Bool} {key : α → κ} {seen : List κ}
    {items : List α}
    : insertionFailures own inside key seen items = []
      ↔ (∀ item ∈ items, own item = [] ∧ inside item = true)
        ∧ (items.map key).Nodup ∧ ∀ item ∈ items, key item ∉ seen := by
  induction items generalizing seen with
  | nil => simp [insertionFailures]
  | cons item rest ih =>
      simp only [insertionFailures, List.append_eq_nil_iff, failIf_eq_nil, ih,
        Bool.or_eq_false_iff, Bool.not_eq_false', List.contains_eq_mem,
        decide_eq_false_iff_not, List.forall_mem_cons, List.map_cons, List.nodup_cons,
        List.mem_map, not_exists, not_and]
      by_cases good : inside item = true
      · simp only [good, if_true, true_and, and_true, List.mem_cons, not_or]
        constructor
        · rintro ⟨⟨own, fresh⟩, others, distinct, apart⟩
          exact ⟨⟨own, others⟩, ⟨fun other member => (apart other member).1, distinct⟩, fresh,
            fun other member => (apart other member).2⟩
        · rintro ⟨⟨own, others⟩, ⟨apart, distinct⟩, fresh, unseen⟩
          exact ⟨⟨own, fresh⟩, others, distinct, fun other member =>
            ⟨apart other member, unseen other member⟩⟩
      · simp [good]

/-- The head is accepted and lies within its scope and its retention limit. -/
def HeadAdmitted (memorySpaceId factualOwnerId : String) (maxRetained : Nat)
    (head : LongTermMemoryHeadManifest)
    : Prop :=
  head.validateContract.accepted = true ∧ head.memorySpaceId = memorySpaceId
    ∧ head.factualOwnerId = factualOwnerId ∧ head.retainedRevisionDigests.length ≤ maxRetained

theorem headFailures_eq_nil {memorySpaceId factualOwnerId : String} {maxRetained : Nat}
    {heads : List LongTermMemoryHeadManifest}
    : headFailures memorySpaceId factualOwnerId maxRetained heads = []
      ↔ (∀ head ∈ heads, HeadAdmitted memorySpaceId factualOwnerId maxRetained head)
        ∧ (heads.map (·.ownerRef)).Nodup := by
  simp [headFailures, insertionFailures_eq_nil, HeadAdmitted, headInScope,
    LongTermMemoryHeadManifest.failures_eq_nil, and_assoc]

/-- The material is accepted and lies within its scope. -/
def MaterialAdmitted (digest : LongTermMemoryVersionDigestInput D → String)
    (memorySpaceId factualOwnerId : String) (material : LongTermMemoryVersionMaterial D)
    : Prop :=
  (material.validateContract digest).accepted = true ∧ material.memorySpaceId = memorySpaceId
    ∧ material.factualOwnerId = factualOwnerId

theorem materialFailures_eq_nil {memorySpaceId factualOwnerId : String}
    {materials : List (LongTermMemoryVersionMaterial D)}
    : materialFailures digest memorySpaceId factualOwnerId materials = []
      ↔ (∀ material ∈ materials,
          MaterialAdmitted digest memorySpaceId factualOwnerId material)
        ∧ (materials.map (·.ownerRevisionRef)).Nodup := by
  simp [materialFailures, insertionFailures_eq_nil, MaterialAdmitted, inScope,
    LongTermMemoryVersionMaterial.failures_eq_nil]

theorem transitionFailures_eq_nil {transitions : List GovernedOwnerTransition}
    : transitionFailures transitions = []
      ↔ (∀ transition ∈ transitions, transition.predecessor.isValid = true)
        ∧ (transitions.map (·.predecessor)).Nodup := by
  simp [transitionFailures, insertionFailures_eq_nil]

/-- With one head for each owner, the heads take out exactly the digests of the materials. -/
theorem retainedFailures_eq_nil {materials : List (LongTermMemoryVersionMaterial D)}
    {taken : List GovernedMemoryOwnerRef} {heads : List LongTermMemoryHeadManifest}
    (distinct : (heads.map (·.ownerRef)).Nodup) (apart : ∀ head ∈ heads, head.ownerRef ∉ taken)
    : retainedFailures materials taken heads = []
      ↔ (∀ head ∈ heads, ∀ retained, retained ∈ head.retainedRevisionDigests
          ↔ ∃ material ∈ materials, material.ownerRef = head.ownerRef
            ∧ material.retainedDigest = retained)
        ∧ ∀ material ∈ materials, material.ownerRef ∈ taken
            ∨ ∃ head ∈ heads, head.ownerRef = material.ownerRef := by
  induction heads generalizing taken with
  | nil => simp [retainedFailures]
  | cons head rest ih =>
      have fresh : head.ownerRef ∉ taken := apart head (by simp)
      have others : ∀ other ∈ rest, other.ownerRef ∉ head.ownerRef :: taken := by
        intro other member
        have unseen := apart other (by simp [member])
        have different := (List.nodup_cons.mp distinct).1
        simp only [List.mem_cons, not_or]
        exact ⟨fun same => different (List.mem_map.mpr ⟨other, member, same⟩), unseen⟩
      simp only [retainedFailures, List.append_eq_nil_iff, failIf_eq_nil, Bool.not_eq_false',
        sameElements_iff, ih (List.nodup_cons.mp distinct).2 others]
      simp only [List.contains_eq_mem, fresh, decide_false, Bool.false_eq_true, if_false,
        ownerMaterials, List.mem_map, List.mem_filter, decide_eq_true_eq, and_assoc,
        List.mem_cons, exists_eq_or_imp, or_assoc]
      grind

theorem lineageGaps_eq_nil {retained : List (LongTermMemoryVersionMaterial D)}
    : lineageGaps retained = []
      ↔ retained.IsChain fun a b => checkedNext a.ownerRevision = some b.ownerRevision := by
  rw [← forall_mem_pairs]
  simp [lineageGaps, List.flatMap_eq_nil_iff]

theorem boundFailures_eq_nil {materials : List (LongTermMemoryVersionMaterial D)}
    {transitions : List GovernedOwnerTransition} {predecessor : GovernedOwnerRevisionRef}
    (materialsDistinct : (materials.map (·.ownerRevisionRef)).Nodup)
    (transitionsDistinct : (transitions.map (·.predecessor)).Nodup)
    : boundFailures digest materials transitions predecessor = []
      ↔ ∃ material ∈ materials, ∃ transition ∈ transitions,
          material.ownerRevisionRef = predecessor ∧ transition.predecessor = predecessor
          ∧ transition.Bound digest material (successorMaterial materials transition) := by
  simp only [boundFailures]
  cases ended : lookup (·.ownerRevisionRef) materials predecessor with
  | none =>
      have missing := lookup_eq_none_iff.mp ended
      simp only [reduceCtorEq, false_iff, not_exists, not_and]
      intro material member transition _ same
      exact absurd same (missing material member)
  | some material =>
      cases ending : lookup (·.predecessor) transitions predecessor with
      | none =>
          have missing := lookup_eq_none_iff.mp ending
          simp only [reduceCtorEq, false_iff, not_exists, not_and]
          intro _ _ transition member _ same
          exact absurd same (missing transition member)
      | some transition =>
          obtain ⟨materialMember, materialKey⟩ := lookup_some ended
          obtain ⟨transitionMember, transitionKey⟩ := lookup_some ending
          rw [transition_failures_eq_nil]
          constructor
          · intro bound
            exact ⟨material, materialMember, transition, transitionMember, materialKey,
              transitionKey, bound⟩
          · rintro ⟨other, otherMember, change, changeMember, key, changeKey, bound⟩
            cases List.inj_on_of_nodup_map materialsDistinct otherMember materialMember
              (key.trans materialKey.symm)
            cases List.inj_on_of_nodup_map transitionsDistinct changeMember transitionMember
              (changeKey.trans transitionKey.symm)
            exact bound

/-- What the validation of a scope's closure accepts. -/
structure Closed (digest : LongTermMemoryVersionDigestInput D → String)
    (memorySpaceId factualOwnerId : String) (heads : List LongTermMemoryHeadManifest)
    (materials : List (LongTermMemoryVersionMaterial D))
    (transitions : List GovernedOwnerTransition) (maxRetained : Nat)
    : Prop where
  scope : notCanonical memorySpaceId = false ∧ notCanonical factualOwnerId = false
    ∧ factualOwnerId = memorySpaceId ∧ maxRetained ≠ 0
  headsAdmitted : ∀ head ∈ heads, HeadAdmitted memorySpaceId factualOwnerId maxRetained head
  headsDistinct : (heads.map (·.ownerRef)).Nodup
  capacity : heads.length * maxRetained < 2 ^ 64
    ∧ materials.length ≤ heads.length * maxRetained
  materialsAdmitted : ∀ material ∈ materials,
    MaterialAdmitted digest memorySpaceId factualOwnerId material
  materialsDistinct : (materials.map (·.ownerRevisionRef)).Nodup
  retained : ∀ head ∈ heads, ∀ retained, retained ∈ head.retainedRevisionDigests
    ↔ ∃ material ∈ materials, material.ownerRef = head.ownerRef
      ∧ material.retainedDigest = retained
  owned : ∀ material ∈ materials, ∃ head ∈ heads, head.ownerRef = material.ownerRef
  transitionsValid : ∀ transition ∈ transitions, transition.predecessor.isValid = true
  transitionsDistinct : (transitions.map (·.predecessor)).Nodup
  contiguous : ∀ head ∈ heads, (retainedMaterials materials head.ownerRef).IsChain
    fun a b => checkedNext a.ownerRevision = some b.ownerRevision
  expected : ∀ predecessor,
    (∃ head ∈ heads, predecessor ∈ expectedPredecessors materials head)
      ↔ ∃ transition ∈ transitions, transition.predecessor = predecessor
  bound : ∀ transition ∈ transitions, ∃ material ∈ materials,
    material.ownerRevisionRef = transition.predecessor
      ∧ transition.Bound digest material (successorMaterial materials transition)

/-- When every material is in the scope, the map by reference holds all of them. -/
theorem filter_inScope {memorySpaceId factualOwnerId : String}
    {materials : List (LongTermMemoryVersionMaterial D)}
    (admitted : ∀ material ∈ materials,
      MaterialAdmitted digest memorySpaceId factualOwnerId material)
    : materials.filter (inScope memorySpaceId factualOwnerId) = materials := by
  refine List.filter_eq_self.mpr fun material member => ?_
  obtain ⟨-, space, owner⟩ := admitted material member
  simp [inScope, space, owner]

theorem validateScopeClosure_accepted_iff {memorySpaceId factualOwnerId : String}
    {heads : List LongTermMemoryHeadManifest}
    {materials : List (LongTermMemoryVersionMaterial D)}
    {transitions : List GovernedOwnerTransition} {maxRetained : Nat}
    : (validateScopeClosure digest memorySpaceId factualOwnerId heads materials transitions
          maxRetained).accepted = true
      ↔ Closed digest memorySpaceId factualOwnerId heads materials transitions maxRetained := by
  simp only [validateScopeClosure, contractValidation_accepted, List.append_eq_nil_iff,
    failIf_eq_nil, headFailures_eq_nil, materialFailures_eq_nil, transitionFailures_eq_nil,
    List.flatMap_eq_nil_iff, lineageGaps_eq_nil, Bool.or_eq_false_iff, Bool.not_eq_false',
    sameElements_iff, List.mem_flatMap, List.mem_map, bne_eq_false_iff_eq, beq_eq_false_iff_ne,
    decide_eq_false_iff_not, not_le, not_lt, ne_eq]
  constructor
  · rintro ⟨⟨⟨⟨⟨⟨⟨⟨scope, headsAdmitted, headsDistinct⟩, capacity⟩, materialsAdmitted,
      materialsDistinct⟩, retained⟩, transitionsValid, transitionsDistinct⟩, contiguous⟩,
      expected⟩, bound⟩
    rw [retainedFailures_eq_nil headsDistinct (by simp)] at retained
    rw [filter_inScope materialsAdmitted, List.filter_eq_self.mpr transitionsValid] at bound
    rw [List.filter_eq_self.mpr transitionsValid] at expected
    refine ⟨⟨scope.1.1.1, scope.1.1.2, scope.1.2, scope.2⟩, headsAdmitted, headsDistinct,
      capacity, materialsAdmitted, materialsDistinct, retained.1, ?_, transitionsValid,
      transitionsDistinct, contiguous, expected, ?_⟩
    · intro material member
      simpa using retained.2 material member
    · intro transition member
      have required := (expected transition.predecessor).mpr ⟨transition, member, rfl⟩
      obtain ⟨material, materialMember, other, otherMember, key, same, holds⟩ :=
        (boundFailures_eq_nil materialsDistinct transitionsDistinct).mp
          (bound transition.predecessor required)
      cases List.inj_on_of_nodup_map transitionsDistinct otherMember member same
      exact ⟨material, materialMember, key, holds⟩
  · intro closed
    rw [retainedFailures_eq_nil closed.headsDistinct (by simp),
      filter_inScope closed.materialsAdmitted, List.filter_eq_self.mpr closed.transitionsValid]
    obtain ⟨space, owner, same, positive⟩ := closed.scope
    refine ⟨⟨⟨⟨⟨⟨⟨⟨⟨⟨⟨space, owner⟩, same⟩, positive⟩, closed.headsAdmitted, closed.headsDistinct⟩,
      closed.capacity⟩, closed.materialsAdmitted, closed.materialsDistinct⟩, closed.retained, ?_⟩,
      closed.transitionsValid, closed.transitionsDistinct⟩, closed.contiguous⟩, closed.expected⟩,
      ?_⟩
    · intro material member
      exact Or.inr (closed.owned material member)
    · intro predecessor required
      obtain ⟨transition, member, rfl⟩ := (closed.expected predecessor).mp required
      obtain ⟨material, materialMember, key, holds⟩ := closed.bound transition member
      exact (boundFailures_eq_nil closed.materialsDistinct closed.transitionsDistinct).mpr
        ⟨material, materialMember, transition, member, key, rfl, holds⟩

end BeetleMemory.LongTerm

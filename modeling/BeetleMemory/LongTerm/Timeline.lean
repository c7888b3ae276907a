import BeetleMemory.LongTerm.ClosureFacts
import BeetleMemory.Lib.Timeline

/-! The retained revisions of one owner in an accepted closure, as a timeline. Each revision
holds from its valid-from time until its transition. The validation ties the end of a revision
to the next one only through a transition that names it, so the revisions tile the time exactly
when every revision before the current one was revised or corrected.
-/

namespace BeetleMemory.LongTerm

open Keyed
open Timeline (Span Tiles)

variable {D : Type} {digest : LongTermMemoryVersionDigestInput D → String}
variable {memorySpaceId factualOwnerId : String} {heads : List LongTermMemoryHeadManifest}
variable {materials : List (LongTermMemoryVersionMaterial D)}
variable {transitions : List GovernedOwnerTransition} {maxRetained : Nat}

/-- The times at which a revision holds. -/
def spanOf (transitions : List GovernedOwnerTransition)
    (material : LongTermMemoryVersionMaterial D)
    : Span Nat where
  start := material.origin.validFrom
  stop := (transitionOf transitions material).map (·.terminatedAt)

theorem mem_ownerMaterials {owner : GovernedMemoryOwnerRef}
    {material : LongTermMemoryVersionMaterial D}
    : material ∈ ownerMaterials owner materials
      ↔ material ∈ materials ∧ material.ownerRef = owner := by
  simp [ownerMaterials]

theorem retainedMaterials_perm (owner : GovernedMemoryOwnerRef)
    : (retainedMaterials materials owner).Perm (ownerMaterials owner materials) :=
  sortBy_perm _ _

theorem mem_retainedMaterials {owner : GovernedMemoryOwnerRef}
    {material : LongTermMemoryVersionMaterial D}
    : material ∈ retainedMaterials materials owner
      ↔ material ∈ materials ∧ material.ownerRef = owner :=
  (retainedMaterials_perm owner).mem_iff.trans mem_ownerMaterials

theorem mem_of_mem_pairs {α : Type} {items : List α} {pair : α × α} (member : pair ∈ pairs items)
    : pair.1 ∈ items ∧ pair.2 ∈ items := by
  obtain ⟨first, second⟩ := List.of_mem_zip member
  exact ⟨first, List.mem_of_mem_tail second⟩

/-- An item of a list is its last one, or begins a consecutive pair. -/
theorem getLast_or_mem_pairs {α : Type} {items : List α} {a : α} (member : a ∈ items)
    : items.getLast? = some a ∨ ∃ b, (a, b) ∈ pairs items := by
  induction items with
  | nil => simp at member
  | cons first rest ih =>
      cases rest with
      | nil => exact Or.inl (by simpa using (List.mem_singleton.mp member).symm)
      | cons second rest =>
          rcases List.mem_cons.mp member with rfl | member
          · exact Or.inr ⟨second, by simp [pairs]⟩
          · rcases ih member with last | ⟨b, inside⟩
            · exact Or.inl (by simpa using last)
            · exact Or.inr ⟨b, by simp_all [pairs]⟩

namespace Closed

variable (closed : Closed digest memorySpaceId factualOwnerId heads materials transitions
  maxRetained)
variable {head : LongTermMemoryHeadManifest} (listed : head ∈ heads)
include closed

/-! ## Revisions of one owner -/

theorem material_eq {a b : LongTermMemoryVersionMaterial D} (ha : a ∈ materials)
    (hb : b ∈ materials) (same : a.ownerRevisionRef = b.ownerRevisionRef)
    : a = b :=
  List.inj_on_of_nodup_map closed.materialsDistinct ha hb same

theorem head_eq {other : LongTermMemoryHeadManifest} (listed : head ∈ heads)
    (otherListed : other ∈ heads) (same : head.ownerRef = other.ownerRef)
    : head = other :=
  List.inj_on_of_nodup_map closed.headsDistinct listed otherListed same

include listed

theorem sound : head.Sound :=
  LongTermMemoryHeadManifest.sound_of_accepted (closed.headsAdmitted head listed).1

/-- No revision of the owner is later than the current one. -/
theorem revision_le_current {material : LongTermMemoryVersionMaterial D}
    (member : material ∈ materials) (owner : material.ownerRef = head.ownerRef)
    : material.ownerRevision ≤ head.currentRevision := by
  have retained := (closed.retained head listed material.retainedDigest).mpr
    ⟨material, member, owner, rfl⟩
  have found : material.ownerRevision ∈ head.retainedRevisionDigests.map (·.ownerRevision) :=
    List.mem_map.mpr ⟨_, retained, rfl⟩
  obtain ⟨before, ends⟩ := List.getLast?_eq_some_iff.mp (closed.sound listed).current
  have increasing := (closed.sound listed).increasing
  rw [ends] at found increasing
  rcases List.mem_append.mp found with early | last
  · exact ((List.pairwise_append.mp increasing).2.2 _ early _ (by simp)).le
  · exact (List.mem_singleton.mp last).le

/-- The current revision is retained. -/
theorem exists_current : ∃ material ∈ materials, material.ownerRef = head.ownerRef
    ∧ material.ownerRevision = head.currentRevision := by
  have last := List.mem_of_getLast? (closed.sound listed).current
  obtain ⟨retained, member, revision⟩ := List.mem_map.mp last
  obtain ⟨material, inside, owner, rfl⟩ := (closed.retained head listed retained).mp member
  exact ⟨material, inside, owner, revision⟩

theorem pair_revisions {pair : LongTermMemoryVersionMaterial D × LongTermMemoryVersionMaterial D}
    (member : pair ∈ pairs (retainedMaterials materials head.ownerRef))
    : pair.2.ownerRevision = pair.1.ownerRevision + 1 :=
  (checkedNext_eq_some.mp (forall_mem_pairs.mpr (closed.contiguous head listed) pair member)).1

/-- A retained revision that is not the current one is followed by the next one. -/
theorem exists_next {material : LongTermMemoryVersionMaterial D}
    (member : material ∈ materials) (owner : material.ownerRef = head.ownerRef)
    (earlier : material.ownerRevision ≠ head.currentRevision)
    : ∃ next, (material, next) ∈ pairs (retainedMaterials materials head.ownerRef) := by
  rcases getLast_or_mem_pairs (mem_retainedMaterials.mpr ⟨member, owner⟩) with last | next
  · obtain ⟨current, inside, sameOwner, revision⟩ := closed.exists_current listed
    obtain ⟨before, ends⟩ := List.getLast?_eq_some_iff.mp last
    have sorted : (retainedMaterials materials head.ownerRef).Pairwise
        fun a b => a.ownerRevision ≤ b.ownerRevision := by
      have chain := (closed.contiguous head listed).imp fun a b next =>
        (checkedNext_eq_some.mp next).1.ge.trans' (Nat.le_succ a.ownerRevision)
      exact chain.pairwise
    have place := mem_retainedMaterials.mpr ⟨inside, sameOwner⟩
    rw [ends] at sorted place
    rcases List.mem_append.mp place with early | same
    · have below := (List.pairwise_append.mp sorted).2.2 _ early material (by simp)
      have above := closed.revision_le_current listed member owner
      omega
    · cases List.mem_singleton.mp same
      exact absurd revision earlier
  · exact next

/-! ## The transition of each revision -/

/-- A revision has a transition exactly when it is not current or its head is terminal. -/
theorem transitionOf_isSome {material : LongTermMemoryVersionMaterial D}
    (member : material ∈ materials) (owner : material.ownerRef = head.ownerRef)
    : (transitionOf transitions material).isSome = true
      ↔ material.ownerRevision ≠ head.currentRevision
        ∨ head.terminalTransitionRef = some material.ownerRevisionRef := by
  have known : (transitionOf transitions material).isSome = true
      ↔ ∃ transition ∈ transitions, transition.predecessor = material.ownerRevisionRef := by
    rw [transitionOf, Option.isSome_iff_ne_none, ne_eq, lookup_eq_none_iff]
    simp
  rw [known, ← closed.expected]
  constructor
  · rintro ⟨other, otherListed, required⟩
    rcases List.mem_append.mp required with paired | terminal
    · obtain ⟨pair, inside, same⟩ := List.mem_map.mp paired
      obtain ⟨first, second⟩ := mem_of_mem_pairs inside
      obtain ⟨firstMember, firstOwner⟩ := mem_retainedMaterials.mp first
      obtain ⟨secondMember, secondOwner⟩ := mem_retainedMaterials.mp second
      cases closed.material_eq firstMember member same
      cases closed.head_eq otherListed listed (firstOwner.symm.trans owner)
      have next := closed.pair_revisions listed inside
      have bounded := closed.revision_le_current listed secondMember secondOwner
      exact Or.inl (by omega)
    · have named := Option.mem_toList.mp terminal
      have exact_ := (closed.sound otherListed).terminal _ named
      have same : other.ownerRef = head.ownerRef :=
        (congrArg GovernedOwnerRevisionRef.ownerRef exact_).symm.trans owner
      cases closed.head_eq otherListed listed same
      exact Or.inr named
  · rintro (earlier | terminal)
    · obtain ⟨next, inside⟩ := closed.exists_next listed member owner earlier
      exact ⟨head, listed, List.mem_append.mpr
        (Or.inl (List.mem_map.mpr ⟨_, inside, rfl⟩))⟩
    · exact ⟨head, listed, List.mem_append.mpr (Or.inr (Option.mem_toList.mpr terminal))⟩

omit listed

/-- The transition of a revision is accepted for it. -/
theorem bound_of_transitionOf {material : LongTermMemoryVersionMaterial D}
    (member : material ∈ materials) {transition : GovernedOwnerTransition}
    (found : transitionOf transitions material = some transition)
    : transition ∈ transitions
      ∧ transition.Bound digest material (successorMaterial materials transition) := by
  obtain ⟨inside, key⟩ := lookup_some found
  obtain ⟨ended, endedMember, same, bound⟩ := closed.bound transition inside
  cases closed.material_eq endedMember member (same.trans key)
  exact ⟨inside, bound⟩

/-- The span of a retained revision is not empty. -/
theorem spanOf_proper {material : LongTermMemoryVersionMaterial D}
    (member : material ∈ materials)
    : (spanOf transitions material).Proper := by
  intro stop stops
  obtain ⟨transition, found, rfl⟩ := Option.map_eq_some_iff.mp stops
  exact (closed.bound_of_transitionOf member found).2.after

/-- A revision that was revised or corrected ends where the next revision begins. -/
theorem ends_at_next {material next : LongTermMemoryVersionMaterial D}
    (member : material ∈ materials) (nextMember : next ∈ materials)
    (owner : next.ownerRef = material.ownerRef)
    (revision : next.ownerRevision = material.ownerRevision + 1)
    {transition : GovernedOwnerTransition}
    (found : transitionOf transitions material = some transition)
    (continued : transition.termination = .revised ∨ transition.termination = .corrected)
    : transition.terminatedAt = next.origin.validFrom := by
  obtain ⟨-, bound⟩ := closed.bound_of_transitionOf member found
  have exact_ : exactSuccessor transition.predecessor transition.successor = true := by
    have accepted := bound.termination
    rcases continued with kind | kind <;>
      simpa [GovernedOwnerTransition.terminationFailures, kind] using accepted
  obtain ⟨reference, named, fits⟩ : ∃ reference, transition.successor = some reference
      ∧ (reference.ownerRef = transition.predecessor.ownerRef
        ∧ checkedNext transition.predecessor.ownerRevision = some reference.ownerRevision) := by
    simpa [exactSuccessor, Option.any_eq_true] using exact_
  rcases successorFailures_eq_nil.mp bound.successor with
    ⟨absent, -⟩ | ⟨other, successor, sameName, material', continues⟩
  · simp [named] at absent
  · cases named.symm.trans sameName
    obtain ⟨successorMember, -⟩ := lookup_some
      (by simpa [successorMaterial, named] using material')
    have key : successor.ownerRevisionRef = next.ownerRevisionRef := by
      obtain ⟨sameOwner, follows⟩ := fits
      have step := (checkedNext_eq_some.mp follows).1
      rw [continues.2.1]
      rw [bound.ends] at sameOwner step
      cases reference
      simp_all [LongTermMemoryVersionMaterial.ownerRevisionRef]
    cases closed.material_eq successorMember nextMember key
    exact continues.2.2.2.2.2.symm

end Closed

/-! ## Reading the revisions -/

/-- The validity that is projected from a revision and its transition. -/
def validityOf (transitions : List GovernedOwnerTransition)
    (material : LongTermMemoryVersionMaterial D)
    : GovernedOwnerValidity where
  validFrom := material.origin.validFrom
  validUntil := (transitionOf transitions material).map (·.terminatedAt)
  observedAt := material.origin.observedAt
  predecessor := material.origin.predecessor
  successor := (transitionOf transitions material).bind (·.successor)
  termination := (transitionOf transitions material).map (·.termination)

theorem validityOf_contains {material : LongTermMemoryVersionMaterial D} {time : Nat}
    : (validityOf transitions material).contains time = true
      ↔ (spanOf transitions material).Contains time := by
  rw [GovernedOwnerValidity.contains, Bool.and_eq_true, decide_eq_true_eq]
  simp only [validityOf, Span.Contains, spanOf]
  refine and_congr_right fun _ => ?_
  cases (transitionOf transitions material).map (·.terminatedAt) <;> simp

/-- A successor that a termination allows is another revision. -/
theorem successor_ne_self {transition : GovernedOwnerTransition}
    {found : Option (LongTermMemoryVersionMaterial D)}
    (accepted : transition.terminationFailures found = [])
    : transition.successor ≠ some transition.predecessor := by
  intro self
  simp only [GovernedOwnerTransition.terminationFailures, self] at accepted
  cases kind : transition.termination <;>
    simp [kind, exactSuccessor, crossOwnerSuccessor, checkedNext_eq_some] at accepted

/-- The validity of an accepted transition passes its own check. -/
theorem validityOf_accepted (closed : Closed digest memorySpaceId factualOwnerId heads materials
      transitions maxRetained)
    {material : LongTermMemoryVersionMaterial D} (member : material ∈ materials)
    : ((validityOf transitions material).validateFor material.ownerRevisionRef).accepted
      = true := by
  have admitted := (closed.materialsAdmitted material member).1
  have valid := LongTermMemoryVersionMaterial.ref_isValid_of_accepted admitted
  obtain ⟨predecessorValid, noLoop, -⟩ :=
    LongTermMemoryVersionMaterial.origin_of_accepted admitted
  have predecessors : material.origin.predecessor.any (!·.isValid) = false := by
    cases named : material.origin.predecessor with
    | none => rfl
    | some predecessor => simp [predecessorValid predecessor named]
  have ordered : (validityOf transitions material).validUntil.any
      (fun validUntil => validUntil ≤ (validityOf transitions material).validFrom) = false := by
    rw [Option.any_eq_false]
    intro stop stops
    have after : (validityOf transitions material).validFrom < stop :=
      closed.spanOf_proper member stop stops
    simpa using after
  simp only [GovernedOwnerValidity.validateFor, contractValidation_accepted,
    List.append_eq_nil_iff, failIf_eq_nil, ordered]
  simp only [GovernedOwnerValidity.terminationFailures, validityOf, valid, predecessors,
    beq_eq_false_iff_ne, Bool.or_eq_false_iff]
  cases found : transitionOf transitions material with
  | none => simp [noLoop]
  | some transition =>
      obtain ⟨-, bound⟩ := closed.bound_of_transitionOf member found
      have successors : transition.successor.any (!·.isValid) = false := by
        cases named : transition.successor with
        | none => rfl
        | some successor => simp [bound.successorValid successor named]
      have different := successor_ne_self bound.termination
      have termination := bound.termination
      rw [bound.ends] at different
      simp only [GovernedOwnerTransition.terminationFailures, bound.ends] at termination
      cases kind : transition.termination <;> simp_all

theorem retainedValidity_eq (closed : Closed digest memorySpaceId factualOwnerId heads materials
      transitions maxRetained)
    {head : LongTermMemoryHeadManifest} (listed : head ∈ heads)
    {material : LongTermMemoryVersionMaterial D} (member : material ∈ materials)
    (owner : material.ownerRef = head.ownerRef)
    : retainedValidity digest head materials transitions material
      = .ok (validityOf transitions material) := by
  have presence := closed.transitionOf_isSome listed member owner
  have accepted := validityOf_accepted closed member
  have admitted := (closed.materialsAdmitted material member).1
  have required : ((transitionOf transitions material).isSome
      == (material.ownerRevision != head.currentRevision
        || head.terminalTransitionRef == some material.ownerRevisionRef)) = true := by
    rw [beq_iff_eq, Bool.eq_iff_iff, presence]
    simp
  simp only [retainedValidity, required, Store.require, if_true, projectLongTermOwnerValidity,
    admitted]
  cases found : transitionOf transitions material with
  | none =>
      simp only [validityOf, found, Option.map_none, Option.bind_none] at accepted
      simp [found, validityOf, accepted, bind, Except.bind, pure, Except.pure]
  | some transition =>
      have bound := validateContract_accepted_iff.mpr
        (closed.bound_of_transitionOf member found).2
      simp only [validityOf, found, Option.map_some, Option.bind_some] at accepted
      simp [found, bound, validityOf, accepted, bind, Except.bind, pure, Except.pure]

/-- The loop keeps what is selected when nothing further contains the time. -/
theorem selectContaining_selected {read : LongTermMemoryVersionMaterial D
      → Except Store.Error GovernedOwnerValidity}
    {valid : LongTermMemoryVersionMaterial D → GovernedOwnerValidity} {time : Nat}
    {owned : List (LongTermMemoryVersionMaterial D)}
    (each : ∀ material ∈ owned, read material = .ok (valid material))
    (outside : ∀ material ∈ owned, (valid material).contains time = false)
    (selected : Option (LongTermMemoryVersionReadProjection D))
    : selectContaining read time selected owned = .ok selected := by
  induction owned with
  | nil => rfl
  | cons material rest ih =>
      have here := each material (by simp)
      have away := outside material (by simp)
      simp only [selectContaining, here, bind, Except.bind, away, Bool.false_eq_true, if_false]
      exact ih (fun other member => each other (by simp [member]))
        (fun other member => outside other (by simp [member]))

/-- Over revisions that never hold at the same time, the loop finds the one that holds. -/
theorem selectContaining_eq {read : LongTermMemoryVersionMaterial D
      → Except Store.Error GovernedOwnerValidity}
    {valid : LongTermMemoryVersionMaterial D → GovernedOwnerValidity} {time : Nat}
    {owned : List (LongTermMemoryVersionMaterial D)}
    (each : ∀ material ∈ owned, read material = .ok (valid material))
    (apart : owned.Pairwise fun a b =>
      ¬((valid a).contains time = true ∧ (valid b).contains time = true))
    : selectContaining read time none owned
      = .ok ((owned.find? fun material => (valid material).contains time).map
          fun material => ⟨material, valid material⟩) := by
  induction owned with
  | nil => rfl
  | cons material rest ih =>
      have here := each material (by simp)
      have others : ∀ other ∈ rest, read other = .ok (valid other) :=
        fun other member => each other (by simp [member])
      obtain ⟨alone, apart⟩ := List.pairwise_cons.mp apart
      simp only [selectContaining, here, bind, Except.bind, Option.isSome_none,
        Bool.false_eq_true, if_false]
      by_cases holds : (valid material).contains time = true
      · have away : ∀ other ∈ rest, (valid other).contains time = false := by
          intro other member
          simpa [holds] using alone other member
        simp only [holds, if_true, selectContaining_selected others away, List.find?_cons_of_pos,
          Option.map_some]
      · simp only [holds, Bool.false_eq_true, if_false, ih others apart]
        simp [holds]

/-- An owner has no more materials than its head has digests. -/
theorem ownerMaterials_length_le (closed : Closed digest memorySpaceId factualOwnerId heads
      materials transitions maxRetained)
    {head : LongTermMemoryHeadManifest} (listed : head ∈ heads)
    : (ownerMaterials head.ownerRef materials).length ≤ head.retainedRevisionDigests.length := by
  have distinct : ((ownerMaterials head.ownerRef materials).map (·.ownerRevision)).Nodup := by
    refine List.Nodup.map_on ?_ (closed.materialsDistinct.of_map.filter _)
    intro a ha b hb same
    obtain ⟨memberA, ownerA⟩ := mem_ownerMaterials.mp ha
    obtain ⟨memberB, ownerB⟩ := mem_ownerMaterials.mp hb
    apply closed.material_eq memberA memberB
    simp [LongTermMemoryVersionMaterial.ownerRevisionRef, same, ownerA, ownerB]
  have inside : (ownerMaterials head.ownerRef materials).map (·.ownerRevision)
      ⊆ head.retainedRevisionDigests.map (·.ownerRevision) := by
    intro revision found
    obtain ⟨material, member, rfl⟩ := List.mem_map.mp found
    obtain ⟨member, owner⟩ := mem_ownerMaterials.mp member
    exact List.mem_map.mpr
      ⟨_, (closed.retained head listed material.retainedDigest).mpr ⟨material, member, owner, rfl⟩,
        rfl⟩
  simpa using (List.subperm_of_subset distinct inside).length_le

/-- The head reads an owner whose revisions never overlap: the selection as of a time is the
revision that holds then.
-/
theorem selectAsOf_eq (closed : Closed digest memorySpaceId factualOwnerId heads materials
      transitions maxRetained)
    {head : LongTermMemoryHeadManifest} (listed : head ∈ heads)
    (apart : (ownerMaterials head.ownerRef materials).Pairwise fun a b =>
      ∀ t, ¬((spanOf transitions a).Contains t ∧ (spanOf transitions b).Contains t))
    (time : Nat)
    : selectLongTermVersionAsOf digest head materials transitions time maxRetained
      = .ok (((ownerMaterials head.ownerRef materials).find? fun material =>
          (validityOf transitions material).contains time).map
          fun material => ⟨material, validityOf transitions material⟩) := by
  obtain ⟨accepted, -, -, within⟩ := closed.headsAdmitted head listed
  have pinned : (head.validateContract.accepted && maxRetained != 0) = true := by
    simp [accepted, closed.scope.2.2.2]
  have exact_ : sameElements ((ownerMaterials head.ownerRef materials).map (·.retainedDigest))
      head.retainedRevisionDigests = true := by
    rw [sameElements_iff]
    intro retained
    rw [closed.retained head listed retained]
    simp [mem_ownerMaterials, and_assoc]
  have fits := (ownerMaterials_length_le closed listed).trans within
  have read : ∀ material ∈ ownerMaterials head.ownerRef materials,
      retainedValidity digest head materials transitions material
        = .ok (validityOf transitions material) := by
    intro material member
    obtain ⟨member, owner⟩ := mem_ownerMaterials.mp member
    exact retainedValidity_eq closed listed member owner
  have alone : (ownerMaterials head.ownerRef materials).Pairwise fun a b =>
      ¬((validityOf transitions a).contains time = true
        ∧ (validityOf transitions b).contains time = true) := by
    refine apart.imp fun separate both => separate time ?_
    exact ⟨validityOf_contains.mp both.1, validityOf_contains.mp both.2⟩
  simp only [selectLongTermVersionAsOf, Store.require, pinned, exact_, fits,
    closed.materialsDistinct, closed.transitionsDistinct, decide_true, Bool.and_true, if_true,
    bind, Except.bind]
  exact selectContaining_eq read alone

/-! ## The timeline -/

/-- Every revision of the head's owner that has a successor was ended for that successor: the
transitions before the current revision revise or correct.
-/
def Continued (transitions : List GovernedOwnerTransition) (head : LongTermMemoryHeadManifest)
    : Prop :=
  ∀ transition ∈ transitions, transition.predecessor.ownerRef = head.ownerRef
    → transition.predecessor.ownerRevision ≠ head.currentRevision
    → transition.termination = .revised ∨ transition.termination = .corrected

theorem tiles (closed : Closed digest memorySpaceId factualOwnerId heads materials transitions
      maxRetained)
    {head : LongTermMemoryHeadManifest} (listed : head ∈ heads)
    (continued : Continued transitions head)
    : Tiles (spanOf transitions) (retainedMaterials materials head.ownerRef) := by
  refine ⟨fun material member => closed.spanOf_proper (mem_retainedMaterials.mp member).1,
    forall_mem_pairs.mp ?_⟩
  intro pair inside
  obtain ⟨first, second⟩ := mem_of_mem_pairs inside
  obtain ⟨member, owner⟩ := mem_retainedMaterials.mp first
  obtain ⟨nextMember, nextOwner⟩ := mem_retainedMaterials.mp second
  have next := closed.pair_revisions listed inside
  have bounded := closed.revision_le_current listed nextMember nextOwner
  have earlier : pair.1.ownerRevision ≠ head.currentRevision := by omega
  have present := (closed.transitionOf_isSome listed member owner).mpr (Or.inl earlier)
  obtain ⟨transition, found⟩ := Option.isSome_iff_exists.mp present
  obtain ⟨inTransitions, bound⟩ := closed.bound_of_transitionOf member found
  have kind := continued transition inTransitions (by rw [bound.ends]; exact owner)
    (by rw [bound.ends]; exact earlier)
  simp only [spanOf, found, Option.map_some, Option.some.injEq]
  exact closed.ends_at_next member nextMember (nextOwner.trans owner.symm) next found kind

/-- The owner's revisions never hold at the same time. -/
theorem ownerMaterials_disjoint (closed : Closed digest memorySpaceId factualOwnerId heads
      materials transitions maxRetained)
    {head : LongTermMemoryHeadManifest} (listed : head ∈ heads)
    (continued : Continued transitions head)
    : (ownerMaterials head.ownerRef materials).Pairwise fun a b =>
        ∀ t, ¬((spanOf transitions a).Contains t ∧ (spanOf transitions b).Contains t) := by
  refine ((retainedMaterials_perm head.ownerRef).pairwise_iff ?_).mp
    (tiles closed listed continued).disjoint
  intro a b separate t both
  exact separate t both.symm

/-- At most one revision of the owner holds at a time. -/
theorem eq_of_contains (closed : Closed digest memorySpaceId factualOwnerId heads materials
      transitions maxRetained)
    {head : LongTermMemoryHeadManifest} (listed : head ∈ heads)
    (continued : Continued transitions head) {a b : LongTermMemoryVersionMaterial D}
    (ha : a ∈ ownerMaterials head.ownerRef materials)
    (hb : b ∈ ownerMaterials head.ownerRef materials) {time : Nat}
    (holdsA : (spanOf transitions a).Contains time)
    (holdsB : (spanOf transitions b).Contains time)
    : a = b := by
  have symmetric : Std.Symm fun a b : LongTermMemoryVersionMaterial D =>
      ∀ t, ¬((spanOf transitions a).Contains t ∧ (spanOf transitions b).Contains t) :=
    ⟨fun _ _ separate t both => separate t both.symm⟩
  by_contra different
  exact (ownerMaterials_disjoint closed listed continued).forall ha hb different time
    ⟨holdsA, holdsB⟩

/-- The selection as of a time is a revision exactly when that revision holds then. -/
theorem selectAsOf_iff (closed : Closed digest memorySpaceId factualOwnerId heads materials
      transitions maxRetained)
    {head : LongTermMemoryHeadManifest} (listed : head ∈ heads)
    (continued : Continued transitions head) (time : Nat)
    : ∃ selected, selectLongTermVersionAsOf digest head materials transitions time maxRetained
        = .ok selected
      ∧ ∀ material, selected.map (·.material) = some material
        ↔ material ∈ ownerMaterials head.ownerRef materials
          ∧ (spanOf transitions material).Contains time := by
  refine ⟨_, selectAsOf_eq closed listed (ownerMaterials_disjoint closed listed continued) time,
    fun material => ?_⟩
  simp only [Option.map_map, Function.comp_def, Option.map_id']
  constructor
  · intro found
    have holds := List.find?_some found
    exact ⟨List.mem_of_find?_eq_some found, validityOf_contains.mp holds⟩
  · rintro ⟨member, holds⟩
    refine find?_eq_some_of_unique member (validityOf_contains.mpr holds) ?_
    intro other otherMember otherHolds
    exact eq_of_contains closed listed continued otherMember member
      (validityOf_contains.mp otherHolds) holds

/-- The current revision holds at the time it begins, so reading the head at that time finds it.
-/
theorem selectCurrent_eq (closed : Closed digest memorySpaceId factualOwnerId heads materials
      transitions maxRetained)
    {head : LongTermMemoryHeadManifest} (listed : head ∈ heads)
    (continued : Continued transitions head)
    : ∃ projection, selectLongTermVersionCurrent digest head materials transitions maxRetained
        = .ok projection
      ∧ projection.material.ownerRevisionRef = ⟨head.ownerRef, head.currentRevision⟩ := by
  obtain ⟨accepted, -⟩ := closed.headsAdmitted head listed
  have pinned : (head.validateContract.accepted && maxRetained != 0) = true := by
    simp [accepted, closed.scope.2.2.2]
  obtain ⟨current, member, owner, revision⟩ := closed.exists_current listed
  have key : current.ownerRevisionRef = ⟨head.ownerRef, head.currentRevision⟩ := by
    rw [LongTermMemoryVersionMaterial.ownerRevisionRef, owner, revision]
  have found : materials.find? (fun material =>
      material.ownerRef == head.ownerRef && material.ownerRevision == head.currentRevision)
        = some current := by
    refine find?_eq_some_of_unique member (by simp [owner, revision]) ?_
    intro other otherMember fits
    simp only [Bool.and_eq_true, beq_iff_eq] at fits
    apply closed.material_eq otherMember member
    rw [key, LongTermMemoryVersionMaterial.ownerRevisionRef, fits.1, fits.2]
  obtain ⟨selected, read, exact_⟩ :=
    selectAsOf_iff closed listed continued current.origin.validFrom
  have holds := (exact_ current).mpr
    ⟨mem_ownerMaterials.mpr ⟨member, owner⟩, (closed.spanOf_proper member).contains_start⟩
  obtain ⟨projection, rfl, same⟩ := Option.map_eq_some_iff.mp holds
  refine ⟨projection, ?_, by rw [same, key]⟩
  simp [selectLongTermVersionCurrent, Store.require, pinned, found, read, same, bind,
    Except.bind, pure, Except.pure]

/-- The retained revisions of a head's owner form a timeline, and reading the head never fails.
-/
structure ReadsAsTimeline (digest : LongTermMemoryVersionDigestInput D → String)
    (materials : List (LongTermMemoryVersionMaterial D))
    (transitions : List GovernedOwnerTransition) (maxRetained : Nat)
    (head : LongTermMemoryHeadManifest)
    : Prop where
  disjoint : ∀ a ∈ ownerMaterials head.ownerRef materials,
    ∀ b ∈ ownerMaterials head.ownerRef materials, a ≠ b
      → ∀ t, ¬((spanOf transitions a).Contains t ∧ (spanOf transitions b).Contains t)
  meets : ∀ a ∈ ownerMaterials head.ownerRef materials,
    ∀ b ∈ ownerMaterials head.ownerRef materials, a.ownerRevision < b.ownerRevision
      → ∃ next ∈ ownerMaterials head.ownerRef materials,
          next.ownerRevision = a.ownerRevision + 1
          ∧ (spanOf transitions a).stop = some (spanOf transitions next).start
  nothingFollows : ∀ transition ∈ transitions,
    transition.predecessor.ownerRef = head.ownerRef
      → transition.termination
          ∈ [GovernedOwnerTermination.deleted, .forgotten, .invalidated, .superseded]
      → ∀ material ∈ ownerMaterials head.ownerRef materials,
          material.ownerRevision ≤ transition.predecessor.ownerRevision
  asOf : ∀ time, ∃ selected,
    selectLongTermVersionAsOf digest head materials transitions time maxRetained = .ok selected
  current : ∃ projection,
    selectLongTermVersionCurrent digest head materials transitions maxRetained = .ok projection
      ∧ projection.material.ownerRevisionRef = ⟨head.ownerRef, head.currentRevision⟩

/-- An accepted closure is a timeline for every owner exactly when each transition before an
owner's current revision revises or corrects.
-/
theorem accepted_closure_timeline
    (accepted : (validateScopeClosure digest memorySpaceId factualOwnerId heads materials
      transitions maxRetained).accepted = true)
    : (∀ head ∈ heads, ReadsAsTimeline digest materials transitions maxRetained head)
      ↔ ∀ head ∈ heads, Continued transitions head := by
  have closed := validateScopeClosure_accepted_iff.mp accepted
  constructor
  · intro reads head listed transition inside owner earlier
    obtain ⟨current, member, sameOwner, revision⟩ := closed.exists_current listed
    obtain ⟨ended, endedMember, key, -⟩ := closed.bound transition inside
    have below : transition.predecessor.ownerRevision ≤ head.currentRevision := by
      rw [← key] at owner ⊢
      exact closed.revision_le_current listed endedMember owner
    by_contra other
    have terminal : transition.termination
        ∈ [GovernedOwnerTermination.deleted, .forgotten, .invalidated, .superseded] := by
      cases kind : transition.termination <;> simp_all
    have last := (reads head listed).nothingFollows transition inside owner terminal current
      (mem_ownerMaterials.mpr ⟨member, sameOwner⟩)
    omega
  · intro continued head listed
    have here := continued head listed
    refine ⟨?_, ?_, ?_, ?_, selectCurrent_eq closed listed here⟩
    · intro a ha b hb different t both
      exact different (eq_of_contains closed listed here ha hb both.1 both.2)
    · intro a ha b hb later
      obtain ⟨member, owner⟩ := mem_ownerMaterials.mp ha
      obtain ⟨laterMember, laterOwner⟩ := mem_ownerMaterials.mp hb
      have bounded := closed.revision_le_current listed laterMember laterOwner
      obtain ⟨next, inside⟩ := closed.exists_next listed member owner (by omega)
      have nextMember := mem_retainedMaterials.mp (mem_of_mem_pairs inside).2
      exact ⟨next, mem_ownerMaterials.mpr nextMember, closed.pair_revisions listed inside,
        forall_mem_pairs.mpr (tiles closed listed here).meets _ inside⟩
    · intro transition inside owner terminal material found
      obtain ⟨member, sameOwner⟩ := mem_ownerMaterials.mp found
      have bounded := closed.revision_le_current listed member sameOwner
      by_contra later
      have kind := here transition inside owner (by omega)
      rcases kind with kind | kind <;> simp [kind] at terminal
    · intro time
      obtain ⟨selected, read, -⟩ := selectAsOf_iff closed listed here time
      exact ⟨selected, read⟩

/-! ## A closure of two revisions -/

/-- A digest of the right shape that tells revisions apart. -/
def sampleDigest (input : LongTermMemoryVersionDigestInput Unit) : String :=
  String.ofList (List.replicate 63 '0' ++ [Nat.digitChar (input.ownerRevision % 16)])

def sampleOwner : GovernedMemoryOwnerRef := ⟨.longTerm, "a"⟩

/-- One revision of the sample owner, valid from a time on. -/
def sampleMaterial (revision validFrom : Nat) : LongTermMemoryVersionMaterial Unit :=
  let input : LongTermMemoryVersionDigestInput Unit :=
    { schemaVersion := longTermMemoryVersionSchemaVersion
      memorySpaceId := "s"
      factualOwnerId := "s"
      ownerRef := sampleOwner
      ownerRevision := revision
      governedContent :=
        { transcriptSources := []
          controlBarrierScopeRevision := none
          content := "c"
          supportingCitations := []
          canonicalEntities := []
          updatedAt := 1
          observedAt := 1
          correctionEvidence := none
          confirmationEvidence := none
          sourceRevision := none
          details := () }
      governedEvidenceRefs := []
      origin :=
        { validFrom
          observedAt := 1
          predecessor := if revision = 1 then none else some ⟨sampleOwner, revision - 1⟩ }
      subjectVisibility := .allSubjects }
  { input with contentDigest := sampleDigest input }

/-- The head of the sample owner at its second revision. -/
def sampleHead (first second : LongTermMemoryVersionMaterial Unit)
    : LongTermMemoryHeadManifest where
  schemaVersion := longTermMemoryVersionSchemaVersion
  memorySpaceId := "s"
  factualOwnerId := "s"
  ownerRef := sampleOwner
  currentRevision := 2
  retainedRevisionDigests := [first.retainedDigest, second.retainedDigest]
  terminalTransitionRef := none
  manifestRevision := 2

/-- The first revision ended at time ten, in the given way. -/
def sampleTransition (termination : GovernedOwnerTermination)
    (successor : Option GovernedOwnerRevisionRef)
    : GovernedOwnerTransition :=
  { predecessor := ⟨sampleOwner, 1⟩, terminatedAt := 10, termination, successor }

/-- A revised owner meets the hypothesis, and its closure is a timeline. -/
theorem revised_closure_timeline
    : let materials := [sampleMaterial 1 1, sampleMaterial 2 10]
      let head := sampleHead (sampleMaterial 1 1) (sampleMaterial 2 10)
      let transitions := [sampleTransition .revised (some ⟨sampleOwner, 2⟩)]
      (validateScopeClosure sampleDigest "s" "s" [head] materials transitions 2).accepted = true
        ∧ ReadsAsTimeline sampleDigest materials transitions 2 head := by
  intro materials head transitions
  have accepted : (validateScopeClosure sampleDigest "s" "s" [head] materials transitions
      2).accepted = true := by decide +kernel
  refine ⟨accepted, (accepted_closure_timeline accepted).mpr ?_ head (by simp)⟩
  intro other listed transition inside _ _
  cases List.mem_singleton.mp inside
  exact Or.inl rfl

/-- The validation accepts a deleted first revision with a second one after it. Both hold at
time seven, where the as-of selection fails.
-/
theorem deleted_revision_overlaps_next
    : let materials := [sampleMaterial 1 1, sampleMaterial 2 5]
      let head := sampleHead (sampleMaterial 1 1) (sampleMaterial 2 5)
      let transitions := [sampleTransition .deleted none]
      (validateScopeClosure sampleDigest "s" "s" [head] materials transitions 2).accepted = true
        ∧ selectLongTermVersionAsOf sampleDigest head materials transitions 7 2
          = .error (.config "long_term_version_as_of_read"
              "multiple retained materials overlap the as-of time") := by
  decide +kernel

end BeetleMemory.LongTerm

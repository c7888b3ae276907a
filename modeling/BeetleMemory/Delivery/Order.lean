import BeetleMemory.Delivery.Allocation

/-! The order of consideration: a permutation with falling utility that rotates over the families
of equal utility, and that depends on the candidates only, not on their positions.
-/

namespace BeetleMemory.Delivery

open Keyed (sortBy distinctSorted)

section Order

variable {α : Type} (candidateOf : α → RecallDeliveryCandidate) (items : List α)

/-! ## Permutation -/

theorem relevanceOrder_perm : (relevanceOrder candidateOf items).Perm items :=
  Keyed.sortBy_perm _ _

variable {candidateOf items} in
theorem mem_familyMembers {family : String} {item : α}
    : item ∈ familyMembers candidateOf items family
      ↔ item ∈ items ∧ deliveryCandidateFamily (candidateOf item) = family := by
  rw [familyMembers, (relevanceOrder_perm _ _).mem_iff, List.mem_filter, decide_eq_true_eq]

theorem familyOrder_nodup : (familyOrder candidateOf items).Nodup := by
  rw [familyOrder, (Keyed.sortBy_perm _ _).nodup_iff]
  exact (Keyed.distinctSorted_sorted _).imp fun below => ne_of_lt below

variable {candidateOf items} in
theorem mem_familyOrder {family : String}
    : family ∈ familyOrder candidateOf items
      ↔ ∃ item ∈ items, deliveryCandidateFamily (candidateOf item) = family := by
  rw [familyOrder, (Keyed.sortBy_perm _ _).mem_iff, Keyed.mem_distinctSorted, List.mem_map]

theorem familyMembers_length_le (family : String)
    : (familyMembers candidateOf items family).length ≤ items.length := by
  rw [familyMembers, (relevanceOrder_perm _ _).length_eq]
  exact List.length_filter_le _ _

/-- The rounds take every item once. -/
theorem hierarchicalFamilyOrder_perm : (hierarchicalFamilyOrder candidateOf items).Perm items := by
  have rounds := Rounds.roundsFrom_perm
    ((familyOrder candidateOf items).map (familyMembers candidateOf items)) (items.length + 1) 0
    (by
      intro list member
      obtain ⟨family, -, rfl⟩ := List.mem_map.mp member
      have bound := familyMembers_length_le candidateOf items family
      omega)
  have groups : (((familyOrder candidateOf items).map (familyMembers candidateOf items)).flatMap
      (·.drop 0)).Perm ((familyOrder candidateOf items).flatMap fun family =>
        items.filter fun item => deliveryCandidateFamily (candidateOf item) = family) := by
    rw [List.flatMap_map]
    exact List.Perm.flatMap_left _ fun family _ => relevanceOrder_perm _ _
  have all : (items.filter fun item =>
      deliveryCandidateFamily (candidateOf item) ∈ familyOrder candidateOf items) = items := by
    refine List.filter_eq_self.mpr fun item member => ?_
    exact decide_eq_true (mem_familyOrder.mpr ⟨item, member, rfl⟩)
  have grouped := Keyed.flatMap_filter_perm
    (fun item => deliveryCandidateFamily (candidateOf item)) items
    (familyOrder_nodup candidateOf items)
  rw [all] at grouped
  exact rounds.trans (groups.trans grouped)

theorem flatten_utilityRuns
    : (utilityRuns candidateOf items).flatten = relevanceOrder candidateOf items :=
  Rounds.flatten_equalRuns le_rfl

theorem relevancePreservingFamilyOrder_perm
    : (relevancePreservingFamilyOrder candidateOf items).Perm items := by
  refine List.Perm.trans ?_ (relevanceOrder_perm candidateOf items)
  rw [← flatten_utilityRuns, relevancePreservingFamilyOrder, ← List.flatMap_id]
  exact List.Perm.flatMap_left _ fun run _ => hierarchicalFamilyOrder_perm _ _

theorem considerationOrder_perm (orderingPolicy : RecallDeliveryOrderingPolicy)
    : (considerationOrder candidateOf orderingPolicy items).Perm items := by
  cases orderingPolicy with
  | relevanceRank => exact relevanceOrder_perm _ _
  | evidenceFamilyRotationWithinEqualUtility => exact relevancePreservingFamilyOrder_perm _ _

/-! ## Utility -/

theorem utility_le_of_place {left right : RecallDeliveryCandidate}
    (before : compareDeliveryUtility left ≤ compareDeliveryUtility right)
    : deliveryUtility right ≤ deliveryUtility left := by
  rcases Prod.Lex.le_iff.mp before with higher | ⟨same, -⟩
  · exact le_of_lt higher
  · exact le_of_eq (congrArg OrderDual.ofDual same.symm)

theorem relevanceOrder_falling
    : (relevanceOrder candidateOf items).Pairwise fun a b =>
        deliveryUtility (candidateOf b) ≤ deliveryUtility (candidateOf a) := by
  have sorted : (relevanceOrder candidateOf items).Pairwise fun a b =>
      compareDeliveryUtility (candidateOf a) ≤ compareDeliveryUtility (candidateOf b) :=
    Keyed.sortBy_sorted (fun item => compareDeliveryUtility (candidateOf item)) items
  exact sorted.imp fun before => utility_le_of_place before

theorem utilityRuns_falling
    : (utilityRuns candidateOf items).Pairwise fun left right => ∀ a ∈ left, ∀ b ∈ right,
        deliveryUtility (candidateOf b) < deliveryUtility (candidateOf a) :=
  Rounds.equalRuns_falling le_rfl (relevanceOrder_falling candidateOf items)

theorem utilityRuns_equal
    : ∀ run ∈ utilityRuns candidateOf items, ∀ a ∈ run, ∀ b ∈ run,
        deliveryUtility (candidateOf a) = deliveryUtility (candidateOf b) :=
  Rounds.equalRuns_key le_rfl

theorem considerationOrder_falling (orderingPolicy : RecallDeliveryOrderingPolicy)
    : (considerationOrder candidateOf orderingPolicy items).Pairwise fun a b =>
        deliveryUtility (candidateOf b) ≤ deliveryUtility (candidateOf a) := by
  cases orderingPolicy with
  | relevanceRank => exact relevanceOrder_falling candidateOf items
  | evidenceFamilyRotationWithinEqualUtility =>
      refine List.pairwise_flatMap.mpr ⟨?_, ?_⟩
      · intro run member
        refine List.pairwise_of_forall_mem_list fun a inA b inB => le_of_eq ?_
        exact utilityRuns_equal candidateOf items run member b
          ((hierarchicalFamilyOrder_perm _ _).mem_iff.mp inB) a
          ((hierarchicalFamilyOrder_perm _ _).mem_iff.mp inA)
      · refine (utilityRuns_falling candidateOf items).imp fun below a inA b inB => le_of_lt ?_
        exact below a ((hierarchicalFamilyOrder_perm _ _).mem_iff.mp inA) b
          ((hierarchicalFamilyOrder_perm _ _).mem_iff.mp inB)

/-! ## Rotation -/

theorem familyRounds_rotates
    : Rounds.Rotates (fun item => deliveryCandidateFamily (candidateOf item))
        (familyRounds candidateOf items) := by
  apply Rounds.roundsFrom_rotates
  · intro list member a inA b inB
    obtain ⟨family, -, rfl⟩ := List.mem_map.mp member
    rw [(mem_familyMembers.mp inA).2, (mem_familyMembers.mp inB).2]
  · rw [List.pairwise_map]
    refine (familyOrder_nodup candidateOf items).imp fun differ a inA b inB => ?_
    rw [(mem_familyMembers.mp inA).2, (mem_familyMembers.mp inB).2]
    exact differ

/-- Runs of falling utility, each considered in rounds with one candidate of every family that has
candidates left.
-/
def RotatesWithinEqualUtility (considered : List RecallDeliveryCandidate) : Prop :=
  ∃ runs : List (List (List RecallDeliveryCandidate)),
    considered = runs.flatMap List.flatten
      ∧ (∀ run ∈ runs, Rounds.Rotates deliveryCandidateFamily run
        ∧ ∀ a ∈ run.flatten, ∀ b ∈ run.flatten, deliveryUtility a = deliveryUtility b)
      ∧ runs.Pairwise fun left right => ∀ a ∈ left.flatten, ∀ b ∈ right.flatten,
          deliveryUtility b < deliveryUtility a

theorem relevancePreservingFamilyOrder_rotates (candidates : List RecallDeliveryCandidate)
    : RotatesWithinEqualUtility (relevancePreservingFamilyOrder id candidates) := by
  have member : ∀ {run : List RecallDeliveryCandidate} {a : RecallDeliveryCandidate},
      a ∈ (familyRounds id run).flatten → a ∈ run := fun inside =>
    (hierarchicalFamilyOrder_perm id _).mem_iff.mp inside
  refine ⟨(utilityRuns id candidates).map (familyRounds id), ?_, ?_, ?_⟩
  · rw [List.flatMap_map]
    rfl
  · intro rounds listed
    obtain ⟨run, inside, rfl⟩ := List.mem_map.mp listed
    exact ⟨familyRounds_rotates id run, fun a inA b inB =>
      utilityRuns_equal id candidates run inside a (member inA) b (member inB)⟩
  · rw [List.pairwise_map]
    exact (utilityRuns_falling id candidates).imp fun below a inA b inB =>
      below a (member inA) b (member inB)

/-! ## Positions do not matter -/

theorem map_relevanceOrder
    : (relevanceOrder candidateOf items).map candidateOf
      = relevanceOrder id (items.map candidateOf) :=
  Keyed.map_sortBy candidateOf compareDeliveryUtility items

theorem map_familyMembers (family : String)
    : (familyMembers candidateOf items family).map candidateOf
      = familyMembers id (items.map candidateOf) family := by
  rw [familyMembers, map_relevanceOrder, familyMembers, List.filter_map]
  rfl

theorem familyPlace_map : familyPlace candidateOf items = familyPlace id (items.map candidateOf) := by
  funext family
  rw [familyPlace, familyPlace, ← map_familyMembers, List.head?_map, Option.map_map]
  rfl

theorem familyOrder_map : familyOrder candidateOf items = familyOrder id (items.map candidateOf) := by
  rw [familyOrder, familyOrder, familyPlace_map, List.map_map]
  rfl

theorem map_familyRounds
    : (familyRounds candidateOf items).map (List.map candidateOf)
      = familyRounds id (items.map candidateOf) := by
  rw [familyRounds, familyRounds, ← Rounds.roundsFrom_map, List.map_map, familyOrder_map,
    List.length_map]
  congr 2
  funext family
  exact map_familyMembers candidateOf items family

theorem map_hierarchicalFamilyOrder
    : (hierarchicalFamilyOrder candidateOf items).map candidateOf
      = hierarchicalFamilyOrder id (items.map candidateOf) := by
  rw [hierarchicalFamilyOrder, List.map_flatten, map_familyRounds, hierarchicalFamilyOrder]

theorem map_utilityRuns
    : (utilityRuns candidateOf items).map (List.map candidateOf)
      = utilityRuns id (items.map candidateOf) := by
  rw [utilityRuns, utilityRuns, ← map_relevanceOrder, List.length_map, Rounds.equalRuns_map]
  rfl

theorem map_considerationOrder (orderingPolicy : RecallDeliveryOrderingPolicy)
    : (considerationOrder candidateOf orderingPolicy items).map candidateOf
      = considerationOrder id orderingPolicy (items.map candidateOf) := by
  cases orderingPolicy with
  | relevanceRank => exact map_relevanceOrder candidateOf items
  | evidenceFamilyRotationWithinEqualUtility =>
      change (relevancePreservingFamilyOrder candidateOf items).map candidateOf
        = relevancePreservingFamilyOrder id (items.map candidateOf)
      rw [relevancePreservingFamilyOrder, relevancePreservingFamilyOrder, ← map_utilityRuns,
        List.map_flatMap, List.flatMap_map]
      congr 1
      funext run
      exact map_hierarchicalFamilyOrder candidateOf run

end Order

/-- Candidates with distinct ids are considered in one order, however they are listed. -/
theorem considerationOrder_eq_of_perm {candidates others : List RecallDeliveryCandidate}
    (distinct : (candidates.map (·.candidateId)).Nodup) (perm : candidates.Perm others)
    (orderingPolicy : RecallDeliveryOrderingPolicy)
    : considerationOrder id orderingPolicy candidates
      = considerationOrder id orderingPolicy others := by
  have places : (candidates.map compareDeliveryUtility).Nodup := by
    rw [List.Nodup, List.pairwise_map] at distinct ⊢
    refine distinct.imp fun differ same => differ ?_
    exact congrArg (fun place => (ofLex (ofLex place).2).2) same
  have ordered : relevanceOrder id candidates = relevanceOrder id others :=
    Keyed.sortBy_eq_of_perm places perm
  cases orderingPolicy with
  | relevanceRank => exact ordered
  | evidenceFamilyRotationWithinEqualUtility =>
      simp only [considerationOrder, relevancePreservingFamilyOrder, utilityRuns, ordered]

end BeetleMemory.Delivery

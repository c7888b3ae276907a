import BeetleMemory.Delivery.Order

/-! Every decision of the allocation is justified by the decisions made before it, and together
they determine the report.
-/

namespace BeetleMemory.Delivery

open Keyed (lookup distinctSorted)

/-! ## Justified decisions -/

/-- Candidates with the decisions made about them, in the order of consideration. -/
abbrev Verdicts := List (RecallDeliveryCandidate × RecallDeliverySelectionDecision)

/-- The candidates that were selected. -/
def chosen (verdicts : Verdicts) : List RecallDeliveryCandidate :=
  (verdicts.filter (·.2.selected)).map (·.1)

def evidenceGroups (candidate : RecallDeliveryCandidate) : List String :=
  candidate.evidenceBindings.map (·.canonicalEvidenceGroup)

/-- What may be decided about a candidate after the decisions before it. -/
inductive Verdict (limit : Nat) (earlier : Verdicts) (candidate : RecallDeliveryCandidate)
    : RecallDeliverySelectionDecision → Prop
  | exhausted (full : limit ≤ (chosen earlier).length)
    : Verdict limit earlier candidate
        (selectionDecision candidate false [] (some .profileBudgetExhausted))
  | duplicate (room : (chosen earlier).length < limit)
    (covered : ∀ group ∈ evidenceGroups candidate,
      group ∈ (chosen earlier).flatMap evidenceGroups)
    : Verdict limit earlier candidate
        (selectionDecision candidate false [] (some .duplicateEvidenceGroup))
  | selected {renderable} (room : (chosen earlier).length < limit)
    (new : renderable
      = uncoveredEvidenceBindings candidate ((chosen earlier).flatMap evidenceGroups))
    (some_new : renderable ≠ [])
    : Verdict limit earlier candidate (selectionDecision candidate true renderable none)

/-- Every decision is justified by those before it. -/
inductive Justified (limit : Nat) : Verdicts → Prop
  | nil : Justified limit []
  | snoc {earlier candidate decision} (before : Justified limit earlier)
    (verdict : Verdict limit earlier candidate decision)
    : Justified limit (earlier ++ [(candidate, decision)])

theorem chosen_append (left right : Verdicts)
    : chosen (left ++ right) = chosen left ++ chosen right := by
  simp [chosen]

theorem uncoveredEvidenceBindings_congr {candidate : RecallDeliveryCandidate}
    {groups others : List String} (same : ∀ group, group ∈ groups ↔ group ∈ others)
    : uncoveredEvidenceBindings candidate groups = uncoveredEvidenceBindings candidate others := by
  refine List.filter_congr fun binding _ => ?_
  simp [same]

theorem uncoveredEvidenceBindings_eq_nil {candidate : RecallDeliveryCandidate}
    {groups : List String}
    : uncoveredEvidenceBindings candidate groups = []
      ↔ ∀ group ∈ evidenceGroups candidate, group ∈ groups := by
  simp [uncoveredEvidenceBindings, evidenceGroups]

/-! ## The loop -/

/-- The candidates and decisions without the positions. -/
def verdictsOf
    (decided : List ((RecallDeliveryCandidate × Nat) × RecallDeliverySelectionDecision))
    : Verdicts :=
  decided.map fun entry => (entry.1.1, entry.2)

/-- The state of the loop after some decisions. -/
structure Scanned (limit : Nat) (state : DeliveryState)
    (decided : List ((RecallDeliveryCandidate × Nat) × RecallDeliverySelectionDecision))
    : Prop where
  decisions : state.decisions = decided.map fun entry => (entry.1.2, entry.2)
  justified : Justified limit (verdictsOf decided)
  selectedIds : state.selectedCandidateIds
    = (chosen (verdictsOf decided)).map (·.candidateId)
  covered : ∀ group, group ∈ state.coveredGroups
    ↔ group ∈ (chosen (verdictsOf decided)).flatMap evidenceGroups
  ownerFamilies : state.selectedOwnerFamilies
    = (chosen (verdictsOf decided)).flatMap fun candidate =>
        candidate.evidenceBindings.map (·.effectiveEvidenceFamilyGroup)
  renderableFamilies : state.renderableFamilies
    = (verdictsOf decided).flatMap fun verdict =>
        verdict.2.renderableEvidenceBindings.map (·.effectiveEvidenceFamilyGroup)

theorem Scanned.empty (limit : Nat) : Scanned limit {} [] :=
  ⟨rfl, .nil, rfl, by simp [verdictsOf, chosen], rfl, rfl⟩

/-- A candidate that is not selected adds its decision only. -/
theorem Scanned.dropped {limit : Nat} {state : DeliveryState}
    {decided : List ((RecallDeliveryCandidate × Nat) × RecallDeliverySelectionDecision)}
    (scanned : Scanned limit state decided) {item : RecallDeliveryCandidate × Nat}
    {reason : RecallDeliverySelectionDropReason}
    (verdict : Verdict limit (verdictsOf decided) item.1
      (selectionDecision item.1 false [] (some reason)))
    : Scanned limit (state.decide item.2 (selectionDecision item.1 false [] (some reason)))
        (decided ++ [(item, selectionDecision item.1 false [] (some reason))]) := by
  have verdicts : verdictsOf (decided ++ [(item, selectionDecision item.1 false [] (some reason))])
      = verdictsOf decided ++ [(item.1, selectionDecision item.1 false [] (some reason))] := by
    simp [verdictsOf]
  have same : chosen (verdictsOf decided
      ++ [(item.1, selectionDecision item.1 false [] (some reason))])
      = chosen (verdictsOf decided) := by
    simp [chosen, selectionDecision]
  refine ⟨by simp [DeliveryState.decide, scanned.decisions], ?_, ?_, ?_, ?_, ?_⟩
  · exact verdicts ▸ scanned.justified.snoc verdict
  · rw [verdicts, same]
    exact scanned.selectedIds
  · rw [verdicts, same]
    exact scanned.covered
  · rw [verdicts, same]
    exact scanned.ownerFamilies
  · rw [verdicts, List.flatMap_append, ← scanned.renderableFamilies]
    simp [DeliveryState.decide, selectionDecision]

/-- A candidate that is selected covers all its groups. -/
theorem Scanned.select {limit : Nat} {state : DeliveryState}
    {decided : List ((RecallDeliveryCandidate × Nat) × RecallDeliverySelectionDecision)}
    (scanned : Scanned limit state decided) {item : RecallDeliveryCandidate × Nat}
    (room : (chosen (verdictsOf decided)).length < limit)
    (some_new : uncoveredEvidenceBindings item.1 state.coveredGroups ≠ [])
    : let renderable := uncoveredEvidenceBindings item.1 state.coveredGroups
      Scanned limit
        ((selectDeliveryCandidate item.1 state renderable).decide item.2
          (selectionDecision item.1 true renderable none))
        (decided ++ [(item, selectionDecision item.1 true renderable none)]) := by
  intro renderable
  have verdicts : verdictsOf (decided ++ [(item, selectionDecision item.1 true renderable none)])
      = verdictsOf decided ++ [(item.1, selectionDecision item.1 true renderable none)] := by
    simp [verdictsOf]
  have more : chosen (verdictsOf decided
      ++ [(item.1, selectionDecision item.1 true renderable none)])
      = chosen (verdictsOf decided) ++ [item.1] := by
    simp [chosen, selectionDecision]
  refine ⟨by simp [DeliveryState.decide, selectDeliveryCandidate, scanned.decisions], ?_, ?_, ?_,
    ?_, ?_⟩
  · exact verdicts ▸ scanned.justified.snoc
      (.selected room (uncoveredEvidenceBindings_congr scanned.covered) some_new)
  · rw [verdicts, more, List.map_append, ← scanned.selectedIds]
    rfl
  · intro group
    rw [verdicts, more, List.flatMap_append, List.mem_append, ← scanned.covered]
    simp only [DeliveryState.decide, selectDeliveryCandidate, List.mem_append,
      List.flatMap_singleton, renderable, uncoveredEvidenceBindings, evidenceGroups, List.mem_map,
      List.mem_filter, Bool.not_eq_true', List.contains_eq_mem, decide_eq_false_iff_not]
    constructor
    · rintro (old | ⟨binding, ⟨inside, -⟩, same⟩)
      · exact Or.inl old
      · exact Or.inr ⟨binding, inside, same⟩
    · rintro (old | ⟨binding, inside, rfl⟩)
      · exact Or.inl old
      · by_cases known : binding.canonicalEvidenceGroup ∈ state.coveredGroups
        · exact Or.inl known
        · exact Or.inr ⟨binding, ⟨inside, known⟩, rfl⟩
  · rw [verdicts, more, List.flatMap_append, ← scanned.ownerFamilies]
    simp [DeliveryState.decide, selectDeliveryCandidate]
  · rw [verdicts, List.flatMap_append, ← scanned.renderableFamilies]
    simp [DeliveryState.decide, selectDeliveryCandidate, selectionDecision, renderable]

theorem Scanned.step {limit : Nat} {state : DeliveryState}
    {decided : List ((RecallDeliveryCandidate × Nat) × RecallDeliverySelectionDecision)}
    (scanned : Scanned limit state decided) (item : RecallDeliveryCandidate × Nat)
    : ∃ decision, Scanned limit (considerCandidate limit state item)
        (decided ++ [(item, decision)]) := by
  have count : state.selectedCandidateIds.length = (chosen (verdictsOf decided)).length := by
    rw [scanned.selectedIds, List.length_map]
  simp only [considerCandidate]
  split_ifs with full covered
  · exact ⟨_, scanned.dropped (.exhausted (count ▸ full))⟩
  · refine ⟨_, scanned.dropped (.duplicate (by omega) fun group member => ?_)⟩
    exact (scanned.covered group).mp
      (uncoveredEvidenceBindings_eq_nil.mp (List.isEmpty_iff.mp covered) group member)
  · exact ⟨_, scanned.select (by omega) fun empty => covered (List.isEmpty_iff.mpr empty)⟩

theorem Scanned.run {limit : Nat} {state : DeliveryState}
    {decided : List ((RecallDeliveryCandidate × Nat) × RecallDeliverySelectionDecision)}
    (scanned : Scanned limit state decided) (items : List (RecallDeliveryCandidate × Nat))
    : ∃ more, more.map (·.1) = items
        ∧ Scanned limit (items.foldl (considerCandidate limit) state) (decided ++ more) := by
  induction items generalizing state decided with
  | nil => exact ⟨[], rfl, by simpa using scanned⟩
  | cons item rest ih =>
      obtain ⟨decision, next⟩ := scanned.step item
      obtain ⟨more, same, last⟩ := ih next
      exact ⟨(item, decision) :: more, by simp [same], by simpa using last⟩

/-! ## What justified decisions say -/

theorem mem_chosen {verdicts : Verdicts} {candidate : RecallDeliveryCandidate}
    : candidate ∈ chosen verdicts
      ↔ ∃ decision, (candidate, decision) ∈ verdicts ∧ decision.selected = true := by
  simp [chosen]

/-- A decision depends on the earlier decisions only. -/
theorem Justified.at {limit : Nat} {before after : Verdicts}
    {candidate : RecallDeliveryCandidate} {decision : RecallDeliverySelectionDecision}
    (justified : Justified limit (before ++ (candidate, decision) :: after))
    : Verdict limit before candidate decision := by
  -- from the end: only the last decision can be taken away
  induction after using List.reverseRecOn with
  | nil =>
      generalize all : before ++ [(candidate, decision)] = verdicts at justified
      cases justified with
      | nil => simp at all
      | snoc earlier verdict =>
          obtain ⟨rfl, same⟩ := List.append_inj' all rfl
          obtain ⟨rfl, rfl⟩ : candidate = _ ∧ decision = _ := by simpa using same
          exact verdict
  | append_singleton rest last ih =>
      generalize all : before ++ (candidate, decision) :: (rest ++ [last]) = verdicts at justified
      cases justified with
      | nil => simp at all
      | snoc earlier verdict =>
          rw [← List.cons_append, ← List.append_assoc] at all
          obtain ⟨rfl, -⟩ := List.append_inj' all rfl
          exact ih earlier

theorem Verdict.unique {limit : Nat} {earlier : Verdicts} {candidate : RecallDeliveryCandidate}
    {left right : RecallDeliverySelectionDecision} (one : Verdict limit earlier candidate left)
    (two : Verdict limit earlier candidate right)
    : left = right := by
  cases one with
  | exhausted full =>
      cases two with
      | exhausted => rfl
      | duplicate room => omega
      | selected room => omega
  | duplicate room covered =>
      cases two with
      | exhausted full => omega
      | duplicate => rfl
      | selected _ new some_new =>
          exact absurd (new.trans (uncoveredEvidenceBindings_eq_nil.mpr covered)) some_new
  | selected room new some_new =>
      cases two with
      | exhausted full => omega
      | duplicate _ covered =>
          exact absurd (new.trans (uncoveredEvidenceBindings_eq_nil.mpr covered)) some_new
      | selected _ other => rw [new, other]

/-- The order of the candidates determines the decisions. -/
theorem Justified.unique {limit : Nat} {left right : Verdicts} (one : Justified limit left)
    (two : Justified limit right) (same : left.map (·.1) = right.map (·.1))
    : left = right := by
  induction one generalizing right with
  | nil => exact (List.map_eq_nil_iff.mp same.symm).symm
  | snoc _ verdict ih =>
      cases two with
      | nil => simp at same
      | snoc before other =>
          simp only [List.map_append, List.map_cons, List.map_nil] at same
          obtain ⟨init, last⟩ := List.append_inj' same rfl
          obtain rfl : _ = _ := by simpa using last
          obtain rfl := ih before init
          rw [verdict.unique other]

theorem Justified.within {limit : Nat} {verdicts : Verdicts}
    (justified : Justified limit verdicts)
    : (chosen verdicts).length ≤ limit := by
  induction justified with
  | nil => simp [chosen]
  | snoc _ verdict ih =>
      rw [chosen_append, List.length_append]
      cases verdict with
      | exhausted => simpa [chosen, selectionDecision] using ih
      | duplicate => simpa [chosen, selectionDecision] using ih
      | selected room =>
          simp only [chosen, selectionDecision, List.filter_cons_of_pos, List.filter_nil,
            List.map_cons, List.map_nil, List.length_singleton] at room ⊢
          omega

/-- What is rendered for a candidate is new evidence of that candidate, and only selected
candidates have something rendered.
-/
theorem Verdict.renderable {limit : Nat} {earlier : Verdicts}
    {candidate : RecallDeliveryCandidate} {decision : RecallDeliverySelectionDecision}
    (verdict : Verdict limit earlier candidate decision) {binding : GovernedEvidenceBinding}
    (member : binding ∈ decision.renderableEvidenceBindings)
    : decision.selected = true ∧ binding ∈ candidate.evidenceBindings
      ∧ binding.canonicalEvidenceGroup ∉ (chosen earlier).flatMap evidenceGroups := by
  cases verdict with
  | exhausted => simp [selectionDecision] at member
  | duplicate => simp [selectionDecision] at member
  | selected _ new =>
      rw [new] at member
      simp only [selectionDecision, uncoveredEvidenceBindings, List.mem_filter,
        Bool.not_eq_true', List.contains_eq_mem, decide_eq_false_iff_not] at member
      exact ⟨rfl, member⟩

/-- No group is rendered for both decisions. -/
def RenderedApart (left right : RecallDeliverySelectionDecision) : Prop :=
  ∀ a ∈ left.renderableEvidenceBindings, ∀ b ∈ right.renderableEvidenceBindings,
    a.canonicalEvidenceGroup ≠ b.canonicalEvidenceGroup

theorem RenderedApart.symm {left right : RecallDeliverySelectionDecision}
    (apart : RenderedApart left right)
    : RenderedApart right left :=
  fun b bMember a aMember same => apart a aMember b bMember same.symm

theorem Justified.renderedApart {limit : Nat} {verdicts : Verdicts}
    (justified : Justified limit verdicts)
    : verdicts.Pairwise fun left right => RenderedApart left.2 right.2 := by
  induction justified with
  | nil => exact List.Pairwise.nil
  | @snoc earlier candidate decision before verdict ih =>
      refine List.pairwise_append.mpr ⟨ih, List.pairwise_singleton _ _, ?_⟩
      intro left leftMember right rightMember a aMember b bMember same
      obtain rfl := List.mem_singleton.mp rightMember
      obtain ⟨start, rest, rfl⟩ := List.append_of_mem leftMember
      obtain ⟨selected, own, -⟩ := before.at.renderable aMember
      refine (verdict.renderable bMember).2.2 (List.mem_flatMap.mpr ⟨left.1, ?_, ?_⟩)
      · exact mem_chosen.mpr ⟨left.2, leftMember, selected⟩
      · exact same ▸ List.mem_map_of_mem own

end BeetleMemory.Delivery

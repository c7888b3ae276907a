import BeetleMemory.Delivery.Greedy

/-! The report of the allocation: it is determined by the justified decisions about the eligible
candidates, and so does not depend on the order in which the candidates are given.
-/

namespace BeetleMemory.Delivery

open Keyed (lookup distinctSorted)

/-! ## The report from the decisions -/

/-- The candidates in the order in which the loop considers them. -/
def consideredCandidates (candidates : List RecallDeliveryCandidate)
    (orderingPolicy : RecallDeliveryOrderingPolicy)
    : List RecallDeliveryCandidate :=
  (consideredItems candidates orderingPolicy).map (·.1)

theorem consideredCandidates_eq (candidates : List RecallDeliveryCandidate)
    (orderingPolicy : RecallDeliveryOrderingPolicy)
    : consideredCandidates candidates orderingPolicy
      = considerationOrder id orderingPolicy (candidates.filter isEligible) := by
  have eligible : (candidates.zipIdx.filter (isEligible ·.1)).map Prod.fst
      = candidates.filter isEligible := by
    conv_rhs => rw [← List.zipIdx_map_fst 0 candidates, List.filter_map]
    rfl
  rw [← eligible, ← map_considerationOrder]
  rfl

theorem consideredCandidates_perm (candidates : List RecallDeliveryCandidate)
    (orderingPolicy : RecallDeliveryOrderingPolicy)
    : (consideredCandidates candidates orderingPolicy).Perm (candidates.filter isEligible) := by
  rw [consideredCandidates_eq]
  exact considerationOrder_perm id _ orderingPolicy

/-- The decision about a candidate; one that was not considered is not eligible. -/
def decisionFor (verdicts : Verdicts) (candidate : RecallDeliveryCandidate)
    : RecallDeliverySelectionDecision :=
  match lookup (·.1) verdicts candidate with
  | some (_, decision) => decision
  | none => selectionDecision candidate false [] (some (ineligibleDropReason candidate))

def reportOf (candidates : List RecallDeliveryCandidate) (verdicts : Verdicts)
    (orderingPolicy : RecallDeliveryOrderingPolicy)
    : RecallDeliverySelectionReport :=
  { selectedCandidateIds := (chosen verdicts).map (·.candidateId)
    decisions := candidates.map (decisionFor verdicts)
    coveredEvidenceGroups := distinctSorted ((chosen verdicts).flatMap evidenceGroups)
    selectedOwnerEvidenceFamilyGroups := distinctSorted ((chosen verdicts).flatMap
      fun candidate => candidate.evidenceBindings.map (·.effectiveEvidenceFamilyGroup))
    renderableEvidenceFamilyGroups := distinctSorted (verdicts.flatMap fun verdict =>
      verdict.2.renderableEvidenceBindings.map (·.effectiveEvidenceFamilyGroup))
    orderingPolicy }

/-- A position that was not decided is that of a candidate that is not eligible. -/
theorem finalDecision_eq {limit : Nat} {state : DeliveryState}
    {decided : List ((RecallDeliveryCandidate × Nat) × RecallDeliverySelectionDecision)}
    (scanned : Scanned limit state decided)
    (positions : (decided.map (·.1.2)).Nodup) (distinct : (decided.map (·.1.1)).Nodup)
    {item : RecallDeliveryCandidate × Nat}
    (same : (∃ decision, (item, decision) ∈ decided)
      ∨ (item.2 ∉ decided.map (·.1.2) ∧ item.1 ∉ decided.map (·.1.1)))
    : finalDecision state item = decisionFor (verdictsOf decided) item.1 := by
  have byPosition : (state.decisions.map (·.1)).Nodup := by
    simpa [scanned.decisions, Function.comp_def] using positions
  have byCandidate : ((verdictsOf decided).map (·.1)).Nodup := by
    simpa [verdictsOf, Function.comp_def] using distinct
  rcases same with ⟨decision, member⟩ | ⟨noPosition, noCandidate⟩
  · have atPosition : lookup (·.1) state.decisions item.2 = some (item.2, decision) := by
      refine (Keyed.lookup_eq_some_iff byPosition).mpr ⟨?_, rfl⟩
      rw [scanned.decisions]
      exact List.mem_map_of_mem (f := fun entry => (entry.1.2, entry.2)) member
    have atCandidate : lookup (·.1) (verdictsOf decided) item.1 = some (item.1, decision) := by
      refine (Keyed.lookup_eq_some_iff byCandidate).mpr ⟨?_, rfl⟩
      exact List.mem_map_of_mem (f := fun entry => (entry.1.1, entry.2)) member
    simp only [finalDecision, decisionFor, atPosition, atCandidate]
  · have atPosition : lookup (·.1) state.decisions item.2 = none := by
      refine Keyed.lookup_eq_none_iff.mpr fun entry inside at_ => noPosition ?_
      rw [scanned.decisions] at inside
      obtain ⟨source, member, rfl⟩ := List.mem_map.mp inside
      exact at_ ▸ List.mem_map_of_mem (f := fun entry => entry.1.2) member
    have atCandidate : lookup (·.1) (verdictsOf decided) item.1 = none := by
      refine Keyed.lookup_eq_none_iff.mpr fun entry inside at_ => noCandidate ?_
      obtain ⟨source, member, rfl⟩ := List.mem_map.mp inside
      exact at_ ▸ List.mem_map_of_mem (f := fun entry => entry.1.1) member
    simp only [finalDecision, decisionFor, atPosition, atCandidate]

/-- The items that the loop considers are those of the eligible candidates. -/
theorem mem_consideredItems {candidates : List RecallDeliveryCandidate}
    {orderingPolicy : RecallDeliveryOrderingPolicy} {item : RecallDeliveryCandidate × Nat}
    : item ∈ consideredItems candidates orderingPolicy
      ↔ item ∈ candidates.zipIdx ∧ isEligible item.1 = true := by
  rw [consideredItems, (considerationOrder_perm _ _ orderingPolicy).mem_iff, List.mem_filter]

theorem zipIdx_positions (candidates : List RecallDeliveryCandidate)
    : (candidates.zipIdx.map (·.2)).Nodup := by
  rw [List.zipIdx_map_snd]
  exact List.nodup_range'

theorem consideredItems_positions (candidates : List RecallDeliveryCandidate)
    (orderingPolicy : RecallDeliveryOrderingPolicy)
    : ((consideredItems candidates orderingPolicy).map (·.2)).Nodup := by
  refine ((considerationOrder_perm _ _ orderingPolicy).map _).nodup_iff.mpr ?_
  exact (zipIdx_positions candidates).sublist (List.filter_sublist.map _)

/-- A candidate that is not eligible is not considered, neither at its position nor elsewhere. -/
theorem not_considered {candidates : List RecallDeliveryCandidate}
    (orderingPolicy : RecallDeliveryOrderingPolicy) {item : RecallDeliveryCandidate × Nat}
    (member : item ∈ candidates.zipIdx) (ineligible : ¬ isEligible item.1 = true)
    : item.2 ∉ (consideredItems candidates orderingPolicy).map (·.2)
      ∧ item.1 ∉ (consideredItems candidates orderingPolicy).map (·.1) := by
  constructor
  · intro inside
    obtain ⟨other, known, same⟩ := List.mem_map.mp inside
    obtain ⟨listed, eligible⟩ := mem_consideredItems.mp known
    obtain rfl := List.inj_on_of_nodup_map (zipIdx_positions candidates) listed member same
    exact ineligible eligible
  · intro inside
    obtain ⟨other, known, same⟩ := List.mem_map.mp inside
    exact ineligible (same ▸ (mem_consideredItems.mp known).2)

theorem consideredCandidates_nodup {candidates : List RecallDeliveryCandidate}
    (distinct : (candidates.map (·.candidateId)).Nodup)
    (orderingPolicy : RecallDeliveryOrderingPolicy)
    : ((consideredCandidates candidates orderingPolicy).map (·.candidateId)).Nodup := by
  refine ((consideredCandidates_perm candidates orderingPolicy).map _).nodup_iff.mpr ?_
  exact distinct.sublist (List.filter_sublist.map _)

/-- The allocation reports justified decisions about the candidates in the order in which they are
considered.
-/
theorem allocateRecallDeliveryCandidates_eq {candidates : List RecallDeliveryCandidate}
    (distinct : (candidates.map (·.candidateId)).Nodup) (limit : Nat)
    (orderingPolicy : RecallDeliveryOrderingPolicy)
    : ∃ verdicts, Justified limit verdicts
        ∧ verdicts.map (·.1) = consideredCandidates candidates orderingPolicy
        ∧ allocateRecallDeliveryCandidates candidates limit orderingPolicy
          = reportOf candidates verdicts orderingPolicy := by
  obtain ⟨decided, items, scanned⟩ :=
    (Scanned.empty limit).run (consideredItems candidates orderingPolicy)
  rw [List.nil_append] at scanned
  have considered : decided.map (·.1.1) = consideredCandidates candidates orderingPolicy := by
    rw [consideredCandidates, ← items, List.map_map]
    rfl
  have positions : (decided.map (·.1.2)).Nodup := by
    have once := consideredItems_positions candidates orderingPolicy
    rwa [← items, List.map_map] at once
  have once : (decided.map (·.1.1)).Nodup :=
    considered ▸ (consideredCandidates_nodup distinct orderingPolicy).of_map
  refine ⟨verdictsOf decided, scanned.justified, ?_, ?_⟩
  · rw [← considered, verdictsOf, List.map_map]
    rfl
  have decisions : candidates.zipIdx.map (finalDecision
        ((consideredItems candidates orderingPolicy).foldl (considerCandidate limit) {}))
      = candidates.map (decisionFor (verdictsOf decided)) := by
    conv_rhs => rw [← List.zipIdx_map_fst 0 candidates, List.map_map]
    refine List.map_congr_left fun item member => finalDecision_eq scanned positions once ?_
    by_cases eligible : isEligible item.1 = true
    · have inside : item ∈ decided.map (·.1) :=
        items ▸ mem_consideredItems.mpr ⟨member, eligible⟩
      obtain ⟨⟨_, decision⟩, known, rfl⟩ := List.mem_map.mp inside
      exact Or.inl ⟨decision, known⟩
    · have absent := not_considered orderingPolicy member eligible
      rw [← items, List.map_map, List.map_map] at absent
      exact Or.inr absent
  have covered : distinctSorted _ = distinctSorted _ := Keyed.distinctSorted_congr scanned.covered
  simp only [allocateRecallDeliveryCandidates, reportOf, decisions, covered,
    scanned.selectedIds, scanned.ownerFamilies, scanned.renderableFamilies]

/-! ## Reading the report -/

theorem Verdict.owner {limit : Nat} {earlier : Verdicts} {candidate : RecallDeliveryCandidate}
    {decision : RecallDeliverySelectionDecision}
    (verdict : Verdict limit earlier candidate decision)
    : decision.candidateId = candidate.candidateId
      ∧ decision.evidenceBindings = candidate.evidenceBindings := by
  cases verdict <;> exact ⟨rfl, rfl⟩

section Reading

variable {limit : Nat} {verdicts : Verdicts}

theorem decisionFor_of_mem (once : (verdicts.map (·.1)).Nodup)
    {candidate : RecallDeliveryCandidate} {decision : RecallDeliverySelectionDecision}
    (member : (candidate, decision) ∈ verdicts)
    : decisionFor verdicts candidate = decision := by
  have found : lookup (·.1) verdicts candidate = some (candidate, decision) :=
    (Keyed.lookup_eq_some_iff once).mpr ⟨member, rfl⟩
  simp only [decisionFor, found]

theorem decisionFor_of_not_mem {candidate : RecallDeliveryCandidate}
    (absent : candidate ∉ verdicts.map (·.1))
    : decisionFor verdicts candidate
      = selectionDecision candidate false [] (some (ineligibleDropReason candidate)) := by
  have missing : lookup (·.1) verdicts candidate = none :=
    Keyed.lookup_eq_none_iff.mpr fun entry inside same =>
      absent (same ▸ List.mem_map_of_mem inside)
  simp only [decisionFor, missing]

theorem mem_verdicts_iff (once : (verdicts.map (·.1)).Nodup) {candidate : RecallDeliveryCandidate}
    : (candidate, decisionFor verdicts candidate) ∈ verdicts ↔ candidate ∈ verdicts.map (·.1) := by
  refine ⟨fun member => List.mem_map_of_mem (f := Prod.fst) member, fun inside => ?_⟩
  obtain ⟨⟨_, decision⟩, member, rfl⟩ := List.mem_map.mp inside
  rwa [decisionFor_of_mem once member]

/-- The decision about a considered candidate is justified by those before it. -/
theorem verdict_of_split (justified : Justified limit verdicts)
    (once : (verdicts.map (·.1)).Nodup) {before after : List RecallDeliveryCandidate}
    {candidate : RecallDeliveryCandidate}
    (split : verdicts.map (·.1) = before ++ candidate :: after)
    : ∃ earlier later, earlier.map (·.1) = before
        ∧ verdicts = earlier ++ (candidate, decisionFor verdicts candidate) :: later
        ∧ Verdict limit earlier candidate (decisionFor verdicts candidate) := by
  obtain ⟨earlier, rest, rfl, same, tail⟩ := List.map_eq_append_iff.mp split
  obtain ⟨⟨_, decision⟩, later, rfl, rfl, -⟩ := List.map_eq_cons_iff.mp tail
  have made := decisionFor_of_mem once (List.mem_append_right earlier List.mem_cons_self)
  refine ⟨earlier, later, same, by rw [made], ?_⟩
  rw [made]
  exact justified.at

theorem decisionFor_owner (justified : Justified limit verdicts)
    (once : (verdicts.map (·.1)).Nodup) (candidate : RecallDeliveryCandidate)
    : (decisionFor verdicts candidate).candidateId = candidate.candidateId
      ∧ (decisionFor verdicts candidate).evidenceBindings = candidate.evidenceBindings := by
  by_cases inside : candidate ∈ verdicts.map (·.1)
  · obtain ⟨before, after, split⟩ := List.append_of_mem inside
    obtain ⟨_, _, _, _, verdict⟩ := verdict_of_split justified once split
    exact verdict.owner
  · rw [decisionFor_of_not_mem inside]
    exact ⟨rfl, rfl⟩

theorem selected_iff_chosen (once : (verdicts.map (·.1)).Nodup)
    {candidate : RecallDeliveryCandidate}
    : (decisionFor verdicts candidate).selected = true ↔ candidate ∈ chosen verdicts := by
  rw [mem_chosen]
  constructor
  · intro selected
    by_cases inside : candidate ∈ verdicts.map (·.1)
    · exact ⟨_, (mem_verdicts_iff once).mpr inside, selected⟩
    · rw [decisionFor_of_not_mem inside] at selected
      exact absurd selected Bool.false_ne_true
  · rintro ⟨decision, member, selected⟩
    rwa [decisionFor_of_mem once member]

theorem decisionFor_renderedApart (justified : Justified limit verdicts)
    (once : (verdicts.map (·.1)).Nodup) {left right : RecallDeliveryCandidate}
    (different : left ≠ right)
    : RenderedApart (decisionFor verdicts left) (decisionFor verdicts right) := by
  -- something is rendered only for a candidate of the loop
  have inLoop {candidate} {binding}
      (member : binding ∈ (decisionFor verdicts candidate).renderableEvidenceBindings)
      : (candidate, decisionFor verdicts candidate) ∈ verdicts := by
    refine (mem_verdicts_iff once).mpr (by_contra fun outside => ?_)
    rw [decisionFor_of_not_mem outside] at member
    exact List.not_mem_nil member
  intro a aMember b bMember
  have : Std.Symm fun one two : RecallDeliveryCandidate × RecallDeliverySelectionDecision =>
      RenderedApart one.2 two.2 := ⟨fun _ _ apart => apart.symm⟩
  exact justified.renderedApart.forall (inLoop aMember) (inLoop bMember)
    (fun same => different (congrArg Prod.fst same)) a aMember b bMember

end Reading

/-! ## Justified delivery -/

/-- What the report says about the candidates, given the order in which they were considered. -/
structure JustifiedDelivery (candidates : List RecallDeliveryCandidate) (limit : Nat)
    (orderingPolicy : RecallDeliveryOrderingPolicy) (considered : List RecallDeliveryCandidate)
    (report : RecallDeliverySelectionReport)
    : Prop where
  /-- Exactly the eligible candidates are considered. -/
  considers : considered.Perm (candidates.filter isEligible)
  /-- Each candidate has one decision, at its position. -/
  decided : report.decisions.map (fun decision => (decision.candidateId, decision.evidenceBindings))
    = candidates.map fun candidate => (candidate.candidateId, candidate.evidenceBindings)
  within : report.selectedCandidateIds.length ≤ limit
  selectedOnce : report.selectedCandidateIds.Nodup
  selectedListed : ∀ candidate decision, (candidate, decision) ∈ candidates.zip report.decisions
    → (decision.selected = true ↔ candidate.candidateId ∈ report.selectedCandidateIds)
  selectedEligible : ∀ id ∈ report.selectedCandidateIds,
    ∃ candidate ∈ candidates, candidate.candidateId = id ∧ isEligible candidate = true
  /-- A selected candidate brings a group that none selected before it has. -/
  contributes : ∀ before candidate after, considered = before ++ candidate :: after
    → candidate.candidateId ∈ report.selectedCandidateIds
    → ∃ group ∈ evidenceGroups candidate, ∀ earlier ∈ before,
        earlier.candidateId ∈ report.selectedCandidateIds → group ∉ evidenceGroups earlier
  renderedApart : report.decisions.Pairwise RenderedApart
  renderedOwn : ∀ decision ∈ report.decisions, ∀ binding ∈ decision.renderableEvidenceBindings,
    binding ∈ decision.evidenceBindings
  /-- An eligible candidate is dropped for one of two reasons. -/
  dropped : ∀ candidate decision, (candidate, decision) ∈ candidates.zip report.decisions
    → isEligible candidate = true → decision.selected = false
    → decision.dropReason = some .duplicateEvidenceGroup
      ∨ decision.dropReason = some .profileBudgetExhausted
  /-- The groups of a duplicate are those of candidates selected before it. -/
  duplicate : ∀ before candidate after decision, considered = before ++ candidate :: after
    → (candidate, decision) ∈ candidates.zip report.decisions
    → decision.dropReason = some .duplicateEvidenceGroup
    → ∀ group ∈ evidenceGroups candidate, ∃ earlier ∈ before,
        earlier.candidateId ∈ report.selectedCandidateIds ∧ group ∈ evidenceGroups earlier
  /-- The budget was used up by candidates selected before. -/
  exhausted : ∀ before candidate after decision, considered = before ++ candidate :: after
    → (candidate, decision) ∈ candidates.zip report.decisions
    → decision.dropReason = some .profileBudgetExhausted
    → (before.filter (·.candidateId ∈ report.selectedCandidateIds)).length = limit
  covered : ∀ group, group ∈ report.coveredEvidenceGroups
    ↔ ∃ candidate ∈ candidates, candidate.candidateId ∈ report.selectedCandidateIds
        ∧ group ∈ evidenceGroups candidate
  falling : considered.Pairwise fun a b => deliveryUtility b ≤ deliveryUtility a
  rotates : orderingPolicy = .evidenceFamilyRotationWithinEqualUtility
    → RotatesWithinEqualUtility considered

/-- Justified decisions about the considered candidates. -/
structure Settled (candidates : List RecallDeliveryCandidate) (limit : Nat)
    (orderingPolicy : RecallDeliveryOrderingPolicy) (verdicts : Verdicts)
    : Prop where
  distinct : (candidates.map (·.candidateId)).Nodup
  justified : Justified limit verdicts
  order : verdicts.map (·.1) = consideredCandidates candidates orderingPolicy

section Settled

variable {candidates : List RecallDeliveryCandidate} {limit : Nat}
  {orderingPolicy : RecallDeliveryOrderingPolicy} {verdicts : Verdicts}

theorem Settled.once (settled : Settled candidates limit orderingPolicy verdicts)
    : (verdicts.map (·.1)).Nodup := by
  rw [settled.order]
  exact (consideredCandidates_nodup settled.distinct orderingPolicy).of_map

theorem Settled.mem_order (settled : Settled candidates limit orderingPolicy verdicts)
    {candidate : RecallDeliveryCandidate}
    : candidate ∈ verdicts.map (·.1) ↔ candidate ∈ candidates ∧ isEligible candidate = true := by
  rw [settled.order, (consideredCandidates_perm candidates orderingPolicy).mem_iff,
    List.mem_filter]

theorem Settled.mem_of_chosen (settled : Settled candidates limit orderingPolicy verdicts)
    {candidate : RecallDeliveryCandidate} (member : candidate ∈ chosen verdicts)
    : candidate ∈ candidates ∧ isEligible candidate = true := by
  obtain ⟨decision, inside, -⟩ := mem_chosen.mp member
  exact settled.mem_order.mp (List.mem_map_of_mem (f := Prod.fst) inside)

/-- Ids stand for candidates. -/
theorem Settled.listed_iff (settled : Settled candidates limit orderingPolicy verdicts)
    {candidate : RecallDeliveryCandidate} (member : candidate ∈ candidates)
    : candidate.candidateId ∈ (chosen verdicts).map (·.candidateId)
      ↔ candidate ∈ chosen verdicts := by
  refine ⟨fun listed => ?_, fun inside => List.mem_map_of_mem inside⟩
  obtain ⟨other, inside, same⟩ := List.mem_map.mp listed
  have known := (settled.mem_of_chosen inside).1
  rwa [← List.inj_on_of_nodup_map settled.distinct known member same]

theorem zip_decisions
    : candidates.zip (candidates.map (decisionFor verdicts))
      = candidates.map fun candidate => (candidate, decisionFor verdicts candidate) := by
  simpa using List.zip_map' (f := id) (g := decisionFor verdicts) (l := candidates)

theorem mem_zip_decisions {candidate : RecallDeliveryCandidate}
    {decision : RecallDeliverySelectionDecision}
    : (candidate, decision) ∈ candidates.zip (candidates.map (decisionFor verdicts))
      ↔ candidate ∈ candidates ∧ decision = decisionFor verdicts candidate := by
  rw [zip_decisions, List.mem_map]
  constructor
  · rintro ⟨_, member, same⟩
    obtain ⟨rfl, rfl⟩ := Prod.mk.inj same
    exact ⟨member, rfl⟩
  · rintro ⟨member, rfl⟩
    exact ⟨candidate, member, rfl⟩

/-- The decision about a considered candidate, with the selected candidates before it. -/
theorem Settled.at (settled : Settled candidates limit orderingPolicy verdicts)
    {before after : List RecallDeliveryCandidate} {candidate : RecallDeliveryCandidate}
    (split : consideredCandidates candidates orderingPolicy = before ++ candidate :: after)
    : ∃ earlier, Verdict limit earlier candidate (decisionFor verdicts candidate)
        ∧ chosen earlier
          = before.filter (·.candidateId ∈ (chosen verdicts).map (·.candidateId))
        ∧ (chosen earlier).length ≤ limit := by
  have split' := settled.order.trans split
  obtain ⟨earlier, later, same, all, verdict⟩ :=
    verdict_of_split settled.justified settled.once split'
  have within : (chosen earlier).length ≤ limit := by
    have total := settled.justified.within
    rw [all, chosen_append, List.length_append] at total
    exact (Nat.le_add_right _ _).trans total
  refine ⟨earlier, verdict, ?_, within⟩
  rw [← same, List.filter_map, chosen]
  refine congrArg _ (List.filter_congr fun entry member => ?_)
  have inside : (entry.1, entry.2) ∈ verdicts := all ▸ List.mem_append_left _ member
  have known : entry.1 ∈ candidates :=
    (settled.mem_order.mp (List.mem_map_of_mem (f := Prod.fst) inside)).1
  rw [← decisionFor_of_mem settled.once inside, Bool.eq_iff_iff,
    selected_iff_chosen settled.once, ← settled.listed_iff known]
  simp

theorem Settled.contributes (settled : Settled candidates limit orderingPolicy verdicts)
    {before after : List RecallDeliveryCandidate} {candidate : RecallDeliveryCandidate}
    (split : consideredCandidates candidates orderingPolicy = before ++ candidate :: after)
    (listed : candidate.candidateId ∈ (chosen verdicts).map (·.candidateId))
    : ∃ group ∈ evidenceGroups candidate, ∀ earlier ∈ before,
        earlier.candidateId ∈ (chosen verdicts).map (·.candidateId)
          → group ∉ evidenceGroups earlier := by
  have member : candidate ∈ candidates :=
    (settled.mem_order.mp (by simp [settled.order, split])).1
  have selected := (selected_iff_chosen settled.once).mpr ((settled.listed_iff member).mp listed)
  obtain ⟨earlier, verdict, same, -⟩ := settled.at split
  generalize decisionFor verdicts candidate = decision at verdict selected
  cases verdict with
  | exhausted => exact absurd selected Bool.false_ne_true
  | duplicate => exact absurd selected Bool.false_ne_true
  | selected _ new some_new =>
      rw [new, Ne, uncoveredEvidenceBindings_eq_nil] at some_new
      push Not at some_new
      obtain ⟨group, own, unseen⟩ := some_new
      refine ⟨group, own, fun other inside otherListed shared => unseen ?_⟩
      refine List.mem_flatMap.mpr ⟨other, ?_, shared⟩
      rw [same, List.mem_filter]
      exact ⟨inside, by simpa using otherListed⟩

theorem Settled.dropped (settled : Settled candidates limit orderingPolicy verdicts)
    {candidate : RecallDeliveryCandidate} (member : candidate ∈ candidates)
    (eligible : isEligible candidate = true)
    (unselected : (decisionFor verdicts candidate).selected = false)
    : (decisionFor verdicts candidate).dropReason = some .duplicateEvidenceGroup
      ∨ (decisionFor verdicts candidate).dropReason = some .profileBudgetExhausted := by
  obtain ⟨before, after, split⟩ :=
    List.append_of_mem (settled.mem_order.mpr ⟨member, eligible⟩)
  obtain ⟨earlier, verdict, -⟩ := settled.at (settled.order.symm.trans split)
  generalize decisionFor verdicts candidate = decision at verdict unselected
  cases verdict with
  | exhausted => exact Or.inr rfl
  | duplicate => exact Or.inl rfl
  | selected => exact absurd unselected.symm Bool.false_ne_true

theorem Settled.duplicate (settled : Settled candidates limit orderingPolicy verdicts)
    {before after : List RecallDeliveryCandidate} {candidate : RecallDeliveryCandidate}
    (split : consideredCandidates candidates orderingPolicy = before ++ candidate :: after)
    (reason : (decisionFor verdicts candidate).dropReason = some .duplicateEvidenceGroup)
    : ∀ group ∈ evidenceGroups candidate, ∃ earlier ∈ before,
        earlier.candidateId ∈ (chosen verdicts).map (·.candidateId)
          ∧ group ∈ evidenceGroups earlier := by
  obtain ⟨earlier, verdict, same, -⟩ := settled.at split
  generalize decisionFor verdicts candidate = decision at verdict reason
  cases verdict with
  | exhausted => simp [selectionDecision] at reason
  | duplicate _ covered =>
      intro group own
      obtain ⟨other, inside, shared⟩ := List.mem_flatMap.mp (covered group own)
      rw [same, List.mem_filter] at inside
      exact ⟨other, inside.1, by simpa using inside.2, shared⟩
  | selected => simp [selectionDecision] at reason

/-- At most the limit are selected in all, so the limit is reached exactly. -/
theorem Settled.exhausted (settled : Settled candidates limit orderingPolicy verdicts)
    {before after : List RecallDeliveryCandidate} {candidate : RecallDeliveryCandidate}
    (split : consideredCandidates candidates orderingPolicy = before ++ candidate :: after)
    (reason : (decisionFor verdicts candidate).dropReason = some .profileBudgetExhausted)
    : (before.filter (·.candidateId ∈ (chosen verdicts).map (·.candidateId))).length
      = limit := by
  obtain ⟨earlier, verdict, same, within⟩ := settled.at split
  generalize decisionFor verdicts candidate = decision at verdict reason
  rw [← same]
  cases verdict with
  | exhausted full => exact le_antisymm within full
  | duplicate => simp [selectionDecision] at reason
  | selected => simp [selectionDecision] at reason

theorem Settled.renderedOwn (settled : Settled candidates limit orderingPolicy verdicts)
    (candidate : RecallDeliveryCandidate)
    : ∀ binding ∈ (decisionFor verdicts candidate).renderableEvidenceBindings,
        binding ∈ (decisionFor verdicts candidate).evidenceBindings := by
  intro binding member
  rw [(decisionFor_owner settled.justified settled.once candidate).2]
  by_cases inside : candidate ∈ verdicts.map (·.1)
  · obtain ⟨before, after, split⟩ := List.append_of_mem inside
    obtain ⟨_, _, _, _, verdict⟩ := verdict_of_split settled.justified settled.once split
    exact (verdict.renderable member).2.1
  · rw [decisionFor_of_not_mem inside] at member
    exact absurd member List.not_mem_nil

theorem Settled.chosen_nodup (settled : Settled candidates limit orderingPolicy verdicts)
    : ((chosen verdicts).map (·.candidateId)).Nodup := by
  have all := consideredCandidates_nodup settled.distinct orderingPolicy
  rw [← settled.order] at all
  exact all.sublist ((List.filter_sublist.map _).map _)

theorem Settled.justifiedDelivery (settled : Settled candidates limit orderingPolicy verdicts)
    : JustifiedDelivery candidates limit orderingPolicy
        (consideredCandidates candidates orderingPolicy)
        (reportOf candidates verdicts orderingPolicy) where
  considers := consideredCandidates_perm candidates orderingPolicy
  decided := by
    rw [reportOf, List.map_map]
    refine List.map_congr_left fun candidate _ => ?_
    have owner := decisionFor_owner settled.justified settled.once candidate
    exact Prod.ext owner.1 owner.2
  within := by
    rw [reportOf, List.length_map]
    exact settled.justified.within
  selectedOnce := settled.chosen_nodup
  selectedListed := by
    intro candidate decision pair
    obtain ⟨member, rfl⟩ := mem_zip_decisions.mp pair
    exact (selected_iff_chosen settled.once).trans (settled.listed_iff member).symm
  selectedEligible := by
    intro id listed
    obtain ⟨candidate, inside, same⟩ := List.mem_map.mp listed
    obtain ⟨member, eligible⟩ := settled.mem_of_chosen inside
    exact ⟨candidate, member, same, eligible⟩
  contributes := fun before candidate after split listed => settled.contributes split listed
  renderedApart := by
    refine List.pairwise_map.mpr (settled.distinct.of_map.imp fun different => ?_)
    exact decisionFor_renderedApart settled.justified settled.once different
  renderedOwn := by
    intro decision member
    obtain ⟨candidate, -, rfl⟩ := List.mem_map.mp member
    exact settled.renderedOwn candidate
  dropped := by
    intro candidate decision pair eligible unselected
    obtain ⟨member, rfl⟩ := mem_zip_decisions.mp pair
    exact settled.dropped member eligible unselected
  duplicate := by
    intro before candidate after decision split pair reason
    obtain ⟨-, rfl⟩ := mem_zip_decisions.mp pair
    exact settled.duplicate split reason
  exhausted := by
    intro before candidate after decision split pair reason
    obtain ⟨-, rfl⟩ := mem_zip_decisions.mp pair
    exact settled.exhausted split reason
  covered := by
    intro group
    rw [reportOf, Keyed.mem_distinctSorted, List.mem_flatMap]
    constructor
    · rintro ⟨candidate, inside, own⟩
      exact ⟨candidate, (settled.mem_of_chosen inside).1, List.mem_map_of_mem inside, own⟩
    · rintro ⟨candidate, member, listed, own⟩
      exact ⟨candidate, (settled.listed_iff member).mp listed, own⟩
  falling := by
    rw [consideredCandidates_eq]
    exact considerationOrder_falling id _ orderingPolicy
  rotates := by
    rintro rfl
    rw [consideredCandidates_eq]
    exact relevancePreservingFamilyOrder_rotates _

end Settled

/-! ## Every list of candidates -/

/-- Two lists of the same candidates are considered in one order. -/
theorem consideredCandidates_eq_of_perm {candidates others : List RecallDeliveryCandidate}
    (distinct : (candidates.map (·.candidateId)).Nodup) (perm : candidates.Perm others)
    (orderingPolicy : RecallDeliveryOrderingPolicy)
    : consideredCandidates candidates orderingPolicy
      = consideredCandidates others orderingPolicy := by
  rw [consideredCandidates_eq, consideredCandidates_eq]
  refine considerationOrder_eq_of_perm ?_ (perm.filter _) orderingPolicy
  exact distinct.sublist (List.filter_sublist.map _)

/-- The report is a justified greedy selection, and a permutation of the candidates permutes the
decisions and changes nothing else.
-/
theorem delivery_justified (candidates : List RecallDeliveryCandidate) (limit : Nat)
    (orderingPolicy : RecallDeliveryOrderingPolicy)
    (distinct : (candidates.map (·.candidateId)).Nodup)
    : let report := allocateRecallDeliveryCandidates candidates limit orderingPolicy
      JustifiedDelivery candidates limit orderingPolicy
          (consideredCandidates candidates orderingPolicy) report
        ∧ ∀ others : List RecallDeliveryCandidate, candidates.Perm others →
          let other := allocateRecallDeliveryCandidates others limit orderingPolicy
          (candidates.zip report.decisions).Perm (others.zip other.decisions)
            ∧ other = { report with decisions := other.decisions } := by
  intro report
  obtain ⟨verdicts, justified, order, same⟩ :=
    allocateRecallDeliveryCandidates_eq distinct limit orderingPolicy
  have reported : report = reportOf candidates verdicts orderingPolicy := same
  refine ⟨reported ▸ Settled.justifiedDelivery ⟨distinct, justified, order⟩, ?_⟩
  intro others perm other
  have otherDistinct : (others.map (·.candidateId)).Nodup := (perm.map _).nodup_iff.mp distinct
  obtain ⟨otherVerdicts, otherJustified, otherOrder, otherSame⟩ :=
    allocateRecallDeliveryCandidates_eq otherDistinct limit orderingPolicy
  have oneOrder := consideredCandidates_eq_of_perm distinct perm orderingPolicy
  obtain rfl : verdicts = otherVerdicts :=
    justified.unique otherJustified (order.trans (oneOrder.trans otherOrder.symm))
  have otherReported : other = reportOf others verdicts orderingPolicy := otherSame
  rw [reported, otherReported]
  refine ⟨?_, rfl⟩
  simp only [reportOf, zip_decisions]
  exact perm.map _

/-- Two candidates of one family of which the second repeats the group of the first, and a third
that is not available.
-/
def sampleCandidates : List RecallDeliveryCandidate :=
  let candidate : RecallDeliveryCandidate :=
    { candidateId := "a"
      evidenceBindings := [⟨"ref", "group", some "family"⟩]
      ownerAvailable := true
      governedBindingEligible := true
      citationEligible := true
      privacyEligible := true
      temporalEligible := true
      sourceRank := some 1
      expandedRank := none
      rerankedRank := 0
      relevanceScore := 3
      authorityScore := 1 }
  [candidate, { candidate with candidateId := "b" },
    { candidate with candidateId := "c", ownerAvailable := false }]

theorem sampleCandidates_justified
    : JustifiedDelivery sampleCandidates 2 .evidenceFamilyRotationWithinEqualUtility
        (consideredCandidates sampleCandidates .evidenceFamilyRotationWithinEqualUtility)
        (allocateRecallDeliveryCandidates sampleCandidates 2
          .evidenceFamilyRotationWithinEqualUtility)
      ∧ (allocateRecallDeliveryCandidates sampleCandidates 2
          .evidenceFamilyRotationWithinEqualUtility).selectedCandidateIds = ["a"] :=
  ⟨(delivery_justified sampleCandidates 2 .evidenceFamilyRotationWithinEqualUtility
      (by decide)).1, by decide +kernel⟩

end BeetleMemory.Delivery

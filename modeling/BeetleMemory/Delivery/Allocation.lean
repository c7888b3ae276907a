import BeetleMemory.Lib.Rounds

/-! Which recalled candidates are delivered: the eligible ones are considered in an order, and each
is selected while the limit allows it and it brings evidence that is not covered yet. Positions in
the list of candidates identify the decisions. Sets of the source are lists here, and are listed in
order where they leave the function.
-/

namespace BeetleMemory.Delivery

open Keyed (lookup sortBy distinctSorted)

/-! ## Candidates and decisions -/

structure GovernedEvidenceBinding where
  safeEvidenceRef : String
  canonicalEvidenceGroup : String
  evidenceFamilyGroup : Option String
deriving DecidableEq, Repr

def GovernedEvidenceBinding.effectiveEvidenceFamilyGroup (self : GovernedEvidenceBinding)
    : String :=
  self.evidenceFamilyGroup.getD self.canonicalEvidenceGroup

structure RecallDeliveryCandidate where
  candidateId : String
  evidenceBindings : List GovernedEvidenceBinding
  ownerAvailable : Bool
  governedBindingEligible : Bool
  citationEligible : Bool
  privacyEligible : Bool
  temporalEligible : Bool
  sourceRank : Option Nat
  expandedRank : Option Nat
  rerankedRank : Nat
  relevanceScore : Nat
  authorityScore : Nat
deriving DecidableEq, Repr

inductive RecallDeliverySelectionDropReason where
  | citationMissing
  | duplicateEvidenceGroup
  | governedBindingInvalid
  | ownerRecordUnavailable
  | profileBudgetExhausted
  | privacyScopeBlocked
  | temporalSuperseded
  | lowerRank
deriving DecidableEq, Repr

inductive RecallDeliveryOrderingPolicy where
  | relevanceRank
  | evidenceFamilyRotationWithinEqualUtility
deriving DecidableEq, Repr

structure RecallDeliverySelectionDecision where
  candidateId : String
  evidenceBindings : List GovernedEvidenceBinding
  renderableEvidenceBindings : List GovernedEvidenceBinding
  selected : Bool
  dropReason : Option RecallDeliverySelectionDropReason
deriving DecidableEq, Repr

structure RecallDeliverySelectionReport where
  selectedCandidateIds : List String
  decisions : List RecallDeliverySelectionDecision
  coveredEvidenceGroups : List String
  selectedOwnerEvidenceFamilyGroups : List String
  renderableEvidenceFamilyGroups : List String
  orderingPolicy : RecallDeliveryOrderingPolicy
deriving DecidableEq, Repr

/-! ## Utility -/

/-- The largest 64-bit number, at which sums and products stop. -/
def u64Max : Nat := 2 ^ 64 - 1

def satAdd (a b : Nat) : Nat := min (a + b) u64Max

def satMul (a b : Nat) : Nat := min (a * b) u64Max

def rankUtility (rank : Option Nat) (weight : Nat) : Nat :=
  match rank with
  | some rank => satMul weight 1000000 / satAdd 60 rank
  | none => 0

def deliveryUtility (candidate : RecallDeliveryCandidate) : Nat :=
  satAdd
    (satAdd
      (satAdd
        (satAdd (rankUtility candidate.sourceRank 4) (rankUtility candidate.expandedRank 3))
        (rankUtility (some candidate.rerankedRank) 2))
      (satMul candidate.relevanceScore 100))
    (satMul candidate.authorityScore 50)

/-- The place of a candidate: by falling utility, then by rank, then by id. -/
def compareDeliveryUtility (candidate : RecallDeliveryCandidate) : ℕᵒᵈ ×ₗ ℕ ×ₗ String :=
  toLex (OrderDual.toDual (deliveryUtility candidate),
    toLex (candidate.rerankedRank, candidate.candidateId))

def deliveryCandidateFamily (candidate : RecallDeliveryCandidate) : String :=
  match candidate.evidenceBindings with
  | binding :: _ => binding.effectiveEvidenceFamilyGroup
  | [] => "candidate:" ++ candidate.candidateId

/-! ## Order of consideration -/

section Order

variable {α : Type} (candidateOf : α → RecallDeliveryCandidate)

def relevanceOrder (items : List α) : List α :=
  sortBy (fun item => compareDeliveryUtility (candidateOf item)) items

/-- The members of a family by relevance. -/
def familyMembers (items : List α) (family : String) : List α :=
  relevanceOrder candidateOf
    (items.filter fun item => deliveryCandidateFamily (candidateOf item) = family)

/-- The place of a family: by its first member, then by name. -/
def familyPlace (items : List α) (family : String) : WithBot (ℕᵒᵈ ×ₗ ℕ ×ₗ String) ×ₗ String :=
  let first : WithBot (ℕᵒᵈ ×ₗ ℕ ×ₗ String) :=
    (familyMembers candidateOf items family).head?.map fun item =>
      compareDeliveryUtility (candidateOf item)
  toLex (first, family)

def familyOrder (items : List α) : List String :=
  sortBy (familyPlace candidateOf items)
    (distinctSorted (items.map fun item => deliveryCandidateFamily (candidateOf item)))

/-- The rounds over the families; there are fewer of them than items and one. -/
def familyRounds (items : List α) : List (List α) :=
  Rounds.roundsFrom ((familyOrder candidateOf items).map (familyMembers candidateOf items))
    (items.length + 1) 0

def hierarchicalFamilyOrder (items : List α) : List α :=
  (familyRounds candidateOf items).flatten

/-- The runs of equal utility in the order of relevance. -/
def utilityRuns (items : List α) : List (List α) :=
  let ordered := relevanceOrder candidateOf items
  Rounds.equalRuns (fun item => deliveryUtility (candidateOf item)) ordered.length ordered

def relevancePreservingFamilyOrder (items : List α) : List α :=
  (utilityRuns candidateOf items).flatMap (hierarchicalFamilyOrder candidateOf)

def considerationOrder (orderingPolicy : RecallDeliveryOrderingPolicy) (items : List α) : List α :=
  match orderingPolicy with
  | .evidenceFamilyRotationWithinEqualUtility => relevancePreservingFamilyOrder candidateOf items
  | .relevanceRank => relevanceOrder candidateOf items

end Order

/-! ## Selection -/

def candidateHasGovernedCitation (candidate : RecallDeliveryCandidate) : Bool :=
  candidate.citationEligible && !candidate.evidenceBindings.isEmpty

def isEligible (candidate : RecallDeliveryCandidate) : Bool :=
  candidate.ownerAvailable && candidate.governedBindingEligible
    && candidateHasGovernedCitation candidate && candidate.privacyEligible
    && candidate.temporalEligible

def uncoveredEvidenceBindings (candidate : RecallDeliveryCandidate) (coveredGroups : List String)
    : List GovernedEvidenceBinding :=
  candidate.evidenceBindings.filter fun binding =>
    !coveredGroups.contains binding.canonicalEvidenceGroup

def ineligibleDropReason (candidate : RecallDeliveryCandidate)
    : RecallDeliverySelectionDropReason :=
  if !candidate.ownerAvailable then .ownerRecordUnavailable
  else if !candidate.governedBindingEligible then .governedBindingInvalid
  else if !candidateHasGovernedCitation candidate then .citationMissing
  else if !candidate.privacyEligible then .privacyScopeBlocked
  else if !candidate.temporalEligible then .temporalSuperseded
  else .profileBudgetExhausted

def selectionDecision (candidate : RecallDeliveryCandidate) (selected : Bool)
    (renderableEvidenceBindings : List GovernedEvidenceBinding)
    (dropReason : Option RecallDeliverySelectionDropReason)
    : RecallDeliverySelectionDecision :=
  { candidateId := candidate.candidateId
    evidenceBindings := candidate.evidenceBindings
    renderableEvidenceBindings, selected, dropReason }

/-- What the loop over the candidates carries: the decisions with the position of the candidate,
in the order in which they were made.
-/
structure DeliveryState where
  selectedCandidateIds : List String := []
  coveredGroups : List String := []
  selectedOwnerFamilies : List String := []
  renderableFamilies : List String := []
  decisions : List (Nat × RecallDeliverySelectionDecision) := []
deriving DecidableEq, Repr

def DeliveryState.decide (self : DeliveryState) (index : Nat)
    (decision : RecallDeliverySelectionDecision)
    : DeliveryState :=
  { self with decisions := self.decisions ++ [(index, decision)] }

def selectDeliveryCandidate (candidate : RecallDeliveryCandidate) (state : DeliveryState)
    (renderableEvidenceBindings : List GovernedEvidenceBinding)
    : DeliveryState :=
  { state with
    selectedCandidateIds := state.selectedCandidateIds ++ [candidate.candidateId]
    coveredGroups := state.coveredGroups
      ++ renderableEvidenceBindings.map (·.canonicalEvidenceGroup)
    selectedOwnerFamilies := state.selectedOwnerFamilies
      ++ candidate.evidenceBindings.map (·.effectiveEvidenceFamilyGroup)
    renderableFamilies := state.renderableFamilies
      ++ renderableEvidenceBindings.map (·.effectiveEvidenceFamilyGroup) }

/-- One candidate of the loop, with its position. -/
def considerCandidate (limit : Nat) (state : DeliveryState)
    (item : RecallDeliveryCandidate × Nat)
    : DeliveryState :=
  let (candidate, index) := item
  if limit ≤ state.selectedCandidateIds.length then
    state.decide index (selectionDecision candidate false [] (some .profileBudgetExhausted))
  else
    let renderable := uncoveredEvidenceBindings candidate state.coveredGroups
    if renderable.isEmpty then
      state.decide index (selectionDecision candidate false [] (some .duplicateEvidenceGroup))
    else
      (selectDeliveryCandidate candidate state renderable).decide index
        (selectionDecision candidate true renderable none)

/-- The eligible candidates with their positions, in the order of consideration. -/
def consideredItems (candidates : List RecallDeliveryCandidate)
    (orderingPolicy : RecallDeliveryOrderingPolicy)
    : List (RecallDeliveryCandidate × Nat) :=
  considerationOrder Prod.fst orderingPolicy (candidates.zipIdx.filter (isEligible ·.1))

/-- The decision that the loop made at a position, or the reason why it did not come there. -/
def finalDecision (state : DeliveryState) (item : RecallDeliveryCandidate × Nat)
    : RecallDeliverySelectionDecision :=
  match lookup (·.1) state.decisions item.2 with
  | some (_, decision) => decision
  | none => selectionDecision item.1 false [] (some (ineligibleDropReason item.1))

def allocateRecallDeliveryCandidates (candidates : List RecallDeliveryCandidate) (limit : Nat)
    (orderingPolicy : RecallDeliveryOrderingPolicy)
    : RecallDeliverySelectionReport :=
  let state := (consideredItems candidates orderingPolicy).foldl (considerCandidate limit) {}
  { selectedCandidateIds := state.selectedCandidateIds
    decisions := candidates.zipIdx.map (finalDecision state)
    coveredEvidenceGroups := distinctSorted state.coveredGroups
    selectedOwnerEvidenceFamilyGroups := distinctSorted state.selectedOwnerFamilies
    renderableEvidenceFamilyGroups := distinctSorted state.renderableFamilies
    orderingPolicy }

end BeetleMemory.Delivery

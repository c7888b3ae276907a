import BeetleMemory.LongTerm.Closure

/-! Whether one owner revision may be recalled: the facts of its lifecycle, a query for now or for
a past time, and the gates of privacy, premise and profile. Every cause of exclusion leaves a
reason in the decision.
-/

namespace BeetleMemory.LongTerm

open Store (Error trimIsEmpty)

/-! ## Reasons -/

inductive GovernedRecallEligibility where
  | eligibleCurrent
  | eligibleHistoricalAsOf
  | excluded
deriving DecidableEq, Repr

inductive GovernedRecallEligibilityReason where
  | privacyBlocked
  | forgotten
  | deleted
  | invalidated
  | superseded
  | obsolete
  | stale
  | premiseBlocked
  | profileBlocked
  | budgetBlocked
  | tombstoned
  | redacted
deriving DecidableEq, Repr

namespace GovernedRecallEligibilityReason

def precedence : GovernedRecallEligibilityReason → Nat
  | .privacyBlocked => 1
  | .forgotten => 2
  | .deleted => 3
  | .invalidated => 4
  | .superseded => 5
  | .obsolete => 6
  | .stale => 7
  | .premiseBlocked => 8
  | .profileBlocked => 9
  | .budgetBlocked => 10
  | .tombstoned => 11
  | .redacted => 12

theorem precedence_injective : Function.Injective precedence := by
  intro a b same
  cases a <;> cases b <;> first | rfl | exact absurd same (by decide)

instance : LinearOrder GovernedRecallEligibilityReason :=
  LinearOrder.lift' precedence precedence_injective

def all : List GovernedRecallEligibilityReason :=
  [.privacyBlocked, .forgotten, .deleted, .invalidated, .superseded, .obsolete, .stale,
    .premiseBlocked, .profileBlocked, .budgetBlocked, .tombstoned, .redacted]

theorem mem_all (reason : GovernedRecallEligibilityReason) : reason ∈ all := by
  cases reason <;> simp [all]

end GovernedRecallEligibilityReason

def primaryGovernedRecallReason (reasons : List GovernedRecallEligibilityReason)
    : Option GovernedRecallEligibilityReason :=
  reasons.argmin (·.precedence)

/-! ## Queries, gates and facts -/

inductive GovernedProfileBudgetDrop where
  | none
  | profile
  | budget
  | profileAndBudget
deriving DecidableEq, Repr

inductive GovernedRecallTemporalQuery where
  | current (queryTime : Nat)
  | historicalAsOf (queryTime asOfTime : Nat)
deriving DecidableEq, Repr

inductive GovernedRecallDisclosure where
  | allowed
  | privacyBlocked
  | redacted
deriving DecidableEq, Repr

inductive PremiseEvaluationDecision where
  | satisfied
  | unsatisfied
  | unknown
  | expired
  | privacyBlocked
deriving DecidableEq, Repr

inductive GovernedRequiredPremiseGate where
  | notApplicable
  | satisfied (decisionRef : String)
  | blocked (decisionRef : String) (decision : PremiseEvaluationDecision)
deriving DecidableEq, Repr

def maxGovernedPremiseDecisionRefBytes : Nat := 256

def maxGovernedEligibilityReasons : Nat := 12

/-- The failures in the order they were found. -/
def GovernedContractValidation.fromFailures (failures : List GovernedContractFailure)
    : GovernedContractValidation where
  accepted := failures.isEmpty
  failures := failures

/-- A decision is referred to by a trimmed text of limited length. -/
def validDecisionRef (decisionRef : String) : Bool :=
  !notCanonical decisionRef && decisionRef.utf8ByteSize ≤ maxGovernedPremiseDecisionRefBytes

def GovernedRequiredPremiseGate.validateContract (self : GovernedRequiredPremiseGate)
    : GovernedContractValidation :=
  let accepted :=
    match self with
    | .notApplicable => true
    | .satisfied decisionRef => validDecisionRef decisionRef
    | .blocked decisionRef decision => validDecisionRef decisionRef && decision != .satisfied
  .fromFailures (failIf (!accepted) .premiseGateInvalid)

structure GovernedRecallAuthorityGates where
  disclosure : GovernedRecallDisclosure
  requiredPremise : GovernedRequiredPremiseGate
  profileBudgetDrop : GovernedProfileBudgetDrop
deriving DecidableEq, Repr

/-- The facts can only be made with a validity that fits the revision. -/
structure GovernedRecallLifecycleFacts where
  ownerRevisionRef : GovernedOwnerRevisionRef
  validity : GovernedOwnerValidity
  stale : Bool
  obsolete : Bool
  tombstoned : Bool
  historicalModelAllowed : Bool
  canonical : (validity.validateFor ownerRevisionRef).accepted = true
deriving DecidableEq

def GovernedRecallLifecycleFacts.new (ownerRevisionRef : GovernedOwnerRevisionRef)
    (validity : GovernedOwnerValidity) (stale obsolete tombstoned historicalModelAllowed : Bool)
    : Except Error GovernedRecallLifecycleFacts :=
  if canonical : (validity.validateFor ownerRevisionRef).accepted = true then
    .ok { ownerRevisionRef, validity, stale, obsolete, tombstoned, historicalModelAllowed,
          canonical }
  else .error (.config "governed_recall_lifecycle_facts" "owner validity is not canonical")

/-! ## Decisions -/

structure GovernedRecallEligibilityDecision where
  eligibility : GovernedRecallEligibility
  primaryReason : Option GovernedRecallEligibilityReason
  reasons : List GovernedRecallEligibilityReason
  ownerRevisionRef : GovernedOwnerRevisionRef
  queryTime : Nat
  effectiveTime : Nat
  premiseDecisionRef : Option String
  profileBudgetDrop : GovernedProfileBudgetDrop
deriving DecidableEq, Repr

def GovernedRecallEligibilityDecision.validateContract (self : GovernedRecallEligibilityDecision)
    : GovernedContractValidation :=
  .fromFailures
    (failIf (!self.ownerRevisionRef.isValid) .ownerRevisionRefInvalid
      ++ failIf (maxGovernedEligibilityReasons < self.reasons.length)
        .eligibilityReasonLimitExceeded
      ++ failIf (self.reasons.dedup.length != self.reasons.length) .eligibilityReasonDuplicate
      ++ (match self.eligibility with
        | .excluded => failIf self.reasons.isEmpty .eligibilityReasonMissing
        | .eligibleCurrent | .eligibleHistoricalAsOf =>
            failIf (!self.reasons.isEmpty) .eligibilityReasonUnexpected)
      ++ failIf (self.primaryReason != primaryGovernedRecallReason self.reasons)
        .eligibilityPrimaryReasonMismatch
      ++ failIf (self.premiseDecisionRef.any (!validDecisionRef ·)
          || self.reasons.contains .premiseBlocked && self.premiseDecisionRef.isNone)
        .premiseGateInvalid)

namespace GovernedRecallTemporalQuery

def historical : GovernedRecallTemporalQuery → Bool
  | .current _ => false
  | .historicalAsOf _ _ => true

def queryTime : GovernedRecallTemporalQuery → Nat
  | .current queryTime | .historicalAsOf queryTime _ => queryTime

def effectiveTime : GovernedRecallTemporalQuery → Nat
  | .current queryTime => queryTime
  | .historicalAsOf _ asOfTime => asOfTime

end GovernedRecallTemporalQuery

/-- The reasons that a disclosure leaves. -/
def disclosureReasons : GovernedRecallDisclosure → List GovernedRecallEligibilityReason
  | .allowed => []
  | .privacyBlocked => [.privacyBlocked]
  | .redacted => [.redacted]

/-- The reasons that a termination leaves: a replaced revision may be read as of a past time. -/
def terminationReasons (historical : Bool)
    : Option GovernedOwnerTermination → List GovernedRecallEligibilityReason
  | some .invalidated => [.invalidated]
  | some .deleted => [.deleted]
  | some .forgotten => [.forgotten]
  | some .corrected => [.obsolete]
  | some .superseded => if historical then [] else [.superseded, .obsolete]
  | some .revised => if historical then [] else [.obsolete]
  | none => []

def premiseReasons : GovernedRequiredPremiseGate → List GovernedRecallEligibilityReason
  | .notApplicable | .satisfied _ => []
  | .blocked _ decision =>
      (if decision = .privacyBlocked then [.privacyBlocked] else []) ++ [.premiseBlocked]

def dropReasons : GovernedProfileBudgetDrop → List GovernedRecallEligibilityReason
  | .none => []
  | .profile => [.profileBlocked]
  | .budget => [.budgetBlocked]
  | .profileAndBudget => [.profileBlocked, .budgetBlocked]

def GovernedRequiredPremiseGate.decisionRef : GovernedRequiredPremiseGate → Option String
  | .notApplicable => none
  | .satisfied decisionRef | .blocked decisionRef _ => some decisionRef

/-- The reasons as they are collected. -/
def collectedReasons (lifecycle : GovernedRecallLifecycleFacts) (historical : Bool)
    (gates : GovernedRecallAuthorityGates)
    : List GovernedRecallEligibilityReason :=
  (if historical && !lifecycle.historicalModelAllowed then [.obsolete] else [])
    ++ disclosureReasons gates.disclosure
    ++ terminationReasons historical lifecycle.validity.termination
    ++ (if lifecycle.stale then [.stale] else [])
    ++ (if lifecycle.obsolete then [.obsolete] else [])
    ++ premiseReasons gates.requiredPremise
    ++ dropReasons gates.profileBudgetDrop
    ++ (if lifecycle.tombstoned && lifecycle.validity.termination.isNone then [.tombstoned]
        else [])

/-- The reasons of a decision: redaction is not mentioned beside a privacy block. -/
def decidedReasons (collected : List GovernedRecallEligibilityReason)
    : List GovernedRecallEligibilityReason :=
  Keyed.distinctSorted
    (if collected.contains .privacyBlocked then collected.filter (· != .redacted) else collected)

def decideGovernedRecallEligibility (lifecycle : GovernedRecallLifecycleFacts)
    (query : GovernedRecallTemporalQuery) (gates : GovernedRecallAuthorityGates)
    : Except Error GovernedRecallEligibilityDecision := do
  let failure := fun message => Error.config "governed_recall_eligibility" message
  Store.require (lifecycle.validity.validateFor lifecycle.ownerRevisionRef).accepted
    (failure "owner lifecycle facts are invalid")
  Store.require gates.requiredPremise.validateContract.accepted
    (failure "required premise gate is invalid")
  Store.require (query.effectiveTime ≤ query.queryTime)
    (failure "historical as-of time cannot be later than query time")
  Store.require (query.queryTime != 0 && lifecycle.validity.validFrom ≤ query.effectiveTime
      && !(query.historical && lifecycle.validity.validUntil.any (· ≤ query.effectiveTime)))
    (failure "query does not address an eligible owner validity interval")
  let reasons := decidedReasons (collectedReasons lifecycle query.historical gates)
  let decision : GovernedRecallEligibilityDecision :=
    { eligibility :=
        if reasons.isEmpty then
          if query.historical then .eligibleHistoricalAsOf else .eligibleCurrent
        else .excluded
      primaryReason := primaryGovernedRecallReason reasons
      reasons
      ownerRevisionRef := lifecycle.ownerRevisionRef
      queryTime := query.queryTime
      effectiveTime := query.effectiveTime
      premiseDecisionRef := gates.requiredPremise.decisionRef
      profileBudgetDrop := gates.profileBudgetDrop }
  Store.require decision.validateContract.accepted
    (failure "derived decision failed its canonical contract")
  return decision

end BeetleMemory.LongTerm

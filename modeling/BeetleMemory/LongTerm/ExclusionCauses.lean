import BeetleMemory.LongTerm.Eligibility
import BeetleMemory.Lib.Fallible

/-! The decision on recall is a function of the causes of exclusion: it is made whenever the query
addresses the revision, it is eligible exactly without a cause, and a further cause hides no
reason but redaction behind a privacy block and a tombstone behind a termination.
-/

namespace BeetleMemory.LongTerm

open Fallible (bind_eq_ok pure_eq_ok)
open GovernedRecallEligibilityReason

/-- Everything a decision is made from. -/
structure RecallRequest where
  lifecycle : GovernedRecallLifecycleFacts
  query : GovernedRecallTemporalQuery
  gates : GovernedRecallAuthorityGates

namespace RecallRequest

def decide (request : RecallRequest) : Except Store.Error GovernedRecallEligibilityDecision :=
  decideGovernedRecallEligibility request.lifecycle request.query request.gates

def collected (request : RecallRequest) : List GovernedRecallEligibilityReason :=
  collectedReasons request.lifecycle request.query.historical request.gates

/-- The decision before it is checked. -/
def decision (request : RecallRequest) : GovernedRecallEligibilityDecision :=
  let reasons := decidedReasons request.collected
  { eligibility :=
      if reasons.isEmpty then
        if request.query.historical then .eligibleHistoricalAsOf else .eligibleCurrent
      else .excluded
    primaryReason := primaryGovernedRecallReason reasons
    reasons
    ownerRevisionRef := request.lifecycle.ownerRevisionRef
    queryTime := request.query.queryTime
    effectiveTime := request.query.effectiveTime
    premiseDecisionRef := request.gates.requiredPremise.decisionRef
    profileBudgetDrop := request.gates.profileBudgetDrop }

/-- The query is for a time at which the revision is or was valid; a revision that ended may be
asked for by a current query.
-/
structure Addresses (request : RecallRequest) : Prop where
  past : request.query.effectiveTime ≤ request.query.queryTime
  positive : request.query.queryTime ≠ 0
  begun : request.lifecycle.validity.validFrom ≤ request.query.effectiveTime
  open_ : request.query.historical = true → ∀ validUntil ∈ request.lifecycle.validity.validUntil,
    request.query.effectiveTime < validUntil

def GateValid (request : RecallRequest) : Prop :=
  request.gates.requiredPremise.validateContract.accepted = true

end RecallRequest

/-! ## Reasons -/

variable {request : RecallRequest} {collected : List GovernedRecallEligibilityReason}
  {reason : GovernedRecallEligibilityReason}

theorem mem_decidedReasons
    : reason ∈ decidedReasons collected
      ↔ reason ∈ collected ∧ (reason = .redacted → privacyBlocked ∉ collected) := by
  rw [decidedReasons, Keyed.mem_distinctSorted]
  by_cases blocked : privacyBlocked ∈ collected
  · simp [blocked]
  · simp [blocked]

/-- Some reason is left when one was collected. -/
theorem decidedReasons_eq_nil : decidedReasons collected = [] ↔ collected = [] := by
  simp only [List.eq_nil_iff_forall_not_mem, mem_decidedReasons, not_and]
  constructor
  · intro none reason member
    by_cases blocked : privacyBlocked ∈ collected
    · exact none privacyBlocked blocked (by simp)
    · exact none reason member fun _ => blocked
  · exact fun none reason member => absurd member (none reason)

theorem decidedReasons_nodup (collected : List GovernedRecallEligibilityReason)
    : (decidedReasons collected).Nodup :=
  (Keyed.distinctSorted_sorted _).imp ne_of_lt

theorem length_decidedReasons_le (collected : List GovernedRecallEligibilityReason)
    : (decidedReasons collected).length ≤ maxGovernedEligibilityReasons :=
  (List.subperm_of_subset (decidedReasons_nodup collected) fun reason _ => mem_all reason).length_le

/-! ## Causes -/

inductive ExclusionCause where
  | historicalModel
  | privacy
  | redaction
  | termination (termination : GovernedOwnerTermination)
  | stale
  | obsolete
  | premise (decision : PremiseEvaluationDecision)
  | profile
  | budget
  | tombstone

/-- A termination excludes the revision: a replaced one only from the present. -/
def GovernedOwnerTermination.Excludes (termination : GovernedOwnerTermination)
    (historical : Bool)
    : Prop :=
  historical = true → termination ≠ .superseded ∧ termination ≠ .revised

/-- The cause applies to the request. A tombstone is a cause of its own only where no termination
says why it stands.
-/
def RecallRequest.Applies (request : RecallRequest) : ExclusionCause → Prop
  | .historicalModel =>
      request.query.historical = true ∧ request.lifecycle.historicalModelAllowed = false
  | .privacy => request.gates.disclosure = .privacyBlocked
  | .redaction => request.gates.disclosure = .redacted
  | .termination termination =>
      request.lifecycle.validity.termination = some termination
        ∧ termination.Excludes request.query.historical
  | .stale => request.lifecycle.stale = true
  | .obsolete => request.lifecycle.obsolete = true
  | .premise decision => ∃ ref, request.gates.requiredPremise = .blocked ref decision
  | .profile => profileBlocked ∈ dropReasons request.gates.profileBudgetDrop
  | .budget => budgetBlocked ∈ dropReasons request.gates.profileBudgetDrop
  | .tombstone =>
      request.lifecycle.tombstoned = true ∧ request.lifecycle.validity.termination = none

def ExclusionCause.reasons : ExclusionCause → List GovernedRecallEligibilityReason
  | .historicalModel => [.obsolete]
  | .privacy => [.privacyBlocked]
  | .redaction => [.redacted]
  | .termination .invalidated => [.invalidated]
  | .termination .deleted => [.deleted]
  | .termination .forgotten => [.forgotten]
  | .termination .superseded => [.superseded, .obsolete]
  | .termination .corrected | .termination .revised => [.obsolete]
  | .stale => [.stale]
  | .obsolete => [.obsolete]
  | .premise .privacyBlocked => [.privacyBlocked, .premiseBlocked]
  | .premise _ => [.premiseBlocked]
  | .profile => [.profileBlocked]
  | .budget => [.budgetBlocked]
  | .tombstone => [.tombstoned]

theorem ExclusionCause.reasons_ne_nil (cause : ExclusionCause) : cause.reasons ≠ [] := by
  cases cause with
  | termination termination => cases termination <;> simp [reasons]
  | premise decision => cases decision <;> simp [reasons]
  | _ => simp [reasons]

section Sources

variable {lifecycle : GovernedRecallLifecycleFacts} {query : GovernedRecallTemporalQuery}
  {gates : GovernedRecallAuthorityGates}

theorem mem_disclosureReasons {disclosure : GovernedRecallDisclosure}
    : reason ∈ disclosureReasons disclosure
      ↔ (disclosure = .privacyBlocked ∧ reason ∈ ExclusionCause.privacy.reasons)
        ∨ (disclosure = .redacted ∧ reason ∈ ExclusionCause.redaction.reasons) := by
  cases disclosure <;> simp [disclosureReasons, ExclusionCause.reasons]

theorem mem_terminationReasons {historical : Bool}
    {termination : Option GovernedOwnerTermination}
    : reason ∈ terminationReasons historical termination
      ↔ ∃ ended, (termination = some ended ∧ ended.Excludes historical)
        ∧ reason ∈ (ExclusionCause.termination ended).reasons := by
  cases termination with
  | none => simp [terminationReasons]
  | some ended =>
      cases historical <;> cases ended <;>
        simp [terminationReasons, GovernedOwnerTermination.Excludes, ExclusionCause.reasons]

theorem mem_premiseReasons {gate : GovernedRequiredPremiseGate}
    : reason ∈ premiseReasons gate
      ↔ ∃ decision, (∃ ref, gate = .blocked ref decision)
        ∧ reason ∈ (ExclusionCause.premise decision).reasons := by
  cases gate with
  | notApplicable | satisfied => simp [premiseReasons]
  | blocked ref decision => cases decision <;> simp [premiseReasons, ExclusionCause.reasons]

theorem mem_dropReasons {drop : GovernedProfileBudgetDrop}
    : reason ∈ dropReasons drop
      ↔ (profileBlocked ∈ dropReasons drop ∧ reason ∈ ExclusionCause.profile.reasons)
        ∨ (budgetBlocked ∈ dropReasons drop ∧ reason ∈ ExclusionCause.budget.reasons) := by
  cases drop <;> simp [dropReasons, ExclusionCause.reasons]

end Sources

theorem exists_cause {holds : ExclusionCause → Prop}
    : (∃ cause, holds cause)
      ↔ holds .historicalModel ∨ (holds .privacy ∨ holds .redaction)
        ∨ (∃ ended, holds (.termination ended)) ∨ holds .stale ∨ holds .obsolete
        ∨ (∃ decision, holds (.premise decision)) ∨ (holds .profile ∨ holds .budget)
        ∨ holds .tombstone := by
  constructor
  · rintro ⟨cause, here⟩
    cases cause with
    | termination ended => exact Or.inr (Or.inr (Or.inl ⟨ended, here⟩))
    | premise decision =>
        exact Or.inr (Or.inr (Or.inr (Or.inr (Or.inr (Or.inl ⟨decision, here⟩)))))
    | _ => tauto
  · rintro (here | (here | here) | ⟨_, here⟩ | here | here | ⟨_, here⟩ | (here | here) | here)
    all_goals exact ⟨_, here⟩

/-- The collected reasons are those of the causes that apply. -/
theorem mem_collected
    : reason ∈ request.collected
      ↔ ∃ cause, request.Applies cause ∧ reason ∈ cause.reasons := by
  rw [exists_cause]
  simp only [RecallRequest.collected, collectedReasons, List.mem_append, or_assoc,
    mem_disclosureReasons, mem_terminationReasons, mem_premiseReasons, List.mem_ite_nil_right,
    Bool.and_eq_true, Bool.not_eq_true', Option.isNone_iff_eq_none]
  rw [mem_dropReasons]
  simp only [RecallRequest.Applies, or_assoc, ExclusionCause.reasons]

theorem collected_eq_nil : request.collected = [] ↔ ∀ cause, ¬ request.Applies cause := by
  constructor
  · intro none cause applies
    obtain ⟨reason, member⟩ := List.exists_mem_of_ne_nil _ cause.reasons_ne_nil
    have collected := mem_collected.mpr ⟨cause, applies, member⟩
    simp [none] at collected
  · intro none
    refine List.eq_nil_iff_forall_not_mem.mpr fun reason member => ?_
    obtain ⟨cause, applies, -⟩ := mem_collected.mp member
    exact none cause applies

/-! ## Decisions -/

/-- A valid gate names its decision by a valid reference, and has one when it blocks. -/
theorem decisionRef_valid (valid : request.GateValid)
    : (∀ ref ∈ request.gates.requiredPremise.decisionRef, validDecisionRef ref = true)
      ∧ (premiseBlocked ∈ request.collected
        → request.gates.requiredPremise.decisionRef.isSome = true) := by
  constructor
  · intro ref named
    simp only [RecallRequest.GateValid, GovernedRequiredPremiseGate.validateContract,
      GovernedContractValidation.fromFailures, List.isEmpty_iff, failIf_eq_nil,
      Bool.not_eq_false'] at valid
    cases gate : request.gates.requiredPremise with
    | notApplicable => simp [gate, GovernedRequiredPremiseGate.decisionRef] at named
    | satisfied other =>
        obtain rfl : other = ref := by
          simpa [gate, GovernedRequiredPremiseGate.decisionRef] using named
        simpa [gate] using valid
    | blocked other decision =>
        obtain rfl : other = ref := by
          simpa [gate, GovernedRequiredPremiseGate.decisionRef] using named
        simp only [gate, Bool.and_eq_true] at valid
        exact valid.1
  · intro member
    obtain ⟨cause, applies, listed⟩ := mem_collected.mp member
    cases cause with
    | premise decision =>
        obtain ⟨ref, gate⟩ := applies
        rw [gate]
        rfl
    | termination ended => cases ended <;> simp [ExclusionCause.reasons] at listed
    | _ => simp [ExclusionCause.reasons] at listed

/-- A decision made of a valid gate passes its own check. -/
theorem decision_accepted (valid : request.GateValid)
    : request.decision.validateContract.accepted = true := by
  obtain ⟨refs, blocked⟩ := decisionRef_valid valid
  have owner : request.lifecycle.ownerRevisionRef.isValid = true := by
    have canonical := request.lifecycle.canonical
    simp only [GovernedOwnerValidity.validateFor, contractValidation_accepted,
      List.append_eq_nil_iff, failIf_eq_nil, Bool.or_eq_false_iff, Bool.not_eq_false'] at canonical
    exact canonical.1.1.1.1.1
  have distinct := List.dedup_eq_self.mpr (decidedReasons_nodup request.collected)
  have premise : (request.gates.requiredPremise.decisionRef.any (!validDecisionRef ·)
      || (decidedReasons request.collected).contains .premiseBlocked
        && request.gates.requiredPremise.decisionRef.isNone) = false := by
    cases named : request.gates.requiredPremise.decisionRef with
    | none =>
        have unblocked : premiseBlocked ∉ decidedReasons request.collected := fun member => by
          simpa [named] using blocked (mem_decidedReasons.mp member).1
        simp [unblocked]
    | some ref => simp [refs ref named]
  simp only [GovernedRecallEligibilityDecision.validateContract,
    GovernedContractValidation.fromFailures, List.isEmpty_iff, List.append_eq_nil_iff,
    failIf_eq_nil, RecallRequest.decision, owner, distinct, premise, bne_self_eq_false,
    Bool.not_true, decide_eq_false_iff_not, not_lt, length_decidedReasons_le, and_true, true_and]
  by_cases empty : decidedReasons request.collected = []
  · cases request.query.historical <;> simp [empty]
  · simp [empty]

/-- The query's time is one at which the revision may be asked for. -/
def RecallRequest.inInterval (request : RecallRequest) : Bool :=
  request.query.queryTime != 0
    && request.lifecycle.validity.validFrom ≤ request.query.effectiveTime
    && !(request.query.historical
      && request.lifecycle.validity.validUntil.any (· ≤ request.query.effectiveTime))

/-- With valid facts and gates only the query can be refused. -/
theorem decide_eq (valid : request.GateValid)
    : request.decide
      = if request.query.effectiveTime ≤ request.query.queryTime then
          if request.inInterval then .ok request.decision
          else .error (.config "governed_recall_eligibility"
            "query does not address an eligible owner validity interval")
        else .error (.config "governed_recall_eligibility"
          "historical as-of time cannot be later than query time") := by
  have derived := decision_accepted valid
  rw [RecallRequest.GateValid] at valid
  simp only [RecallRequest.decide, decideGovernedRecallEligibility, Store.require_bind,
    request.lifecycle.canonical, valid, if_true, decide_eq_true_eq]
  exact if_congr Iff.rfl (if_congr Iff.rfl (if_pos derived) rfl) rfl

theorem addresses_iff
    : request.Addresses
      ↔ request.query.effectiveTime ≤ request.query.queryTime ∧ request.inInterval = true := by
  simp only [RecallRequest.inInterval, Bool.and_eq_true, bne_iff_ne, decide_eq_true_eq,
    Bool.not_eq_true', Bool.and_eq_false_iff]
  constructor
  · intro addresses
    refine ⟨addresses.past, ⟨addresses.positive, addresses.begun⟩, ?_⟩
    cases historical : request.query.historical with
    | false => exact Or.inl rfl
    | true =>
        refine Or.inr ?_
        cases named : request.lifecycle.validity.validUntil with
        | none => rfl
        | some validUntil => simpa using addresses.open_ historical validUntil named
  · rintro ⟨past, ⟨positive, begun⟩, open_⟩
    refine ⟨past, positive, begun, fun historical validUntil listed => ?_⟩
    simpa [historical, listed.out] using open_

theorem decide_eq_ok (valid : request.GateValid) {decision : GovernedRecallEligibilityDecision}
    : request.decide = .ok decision ↔ request.Addresses ∧ decision = request.decision := by
  rw [decide_eq valid, addresses_iff]
  split_ifs with past address
  · rw [Except.ok.injEq, eq_comm, and_iff_right ⟨past, address⟩]
  · simp [address]
  · simp [past]

theorem decide_ne_contract_error (valid : request.GateValid)
    : request.decide ≠ .error (.config "governed_recall_eligibility"
        "derived decision failed its canonical contract") := by
  rw [decide_eq valid]
  split_ifs <;> simp

theorem excluded_iff : request.decision.eligibility = .excluded ↔ request.collected ≠ [] := by
  rw [← not_iff_not, not_not, ← decidedReasons_eq_nil]
  cases empty : (decidedReasons request.collected).isEmpty with
  | false => simp_all [RecallRequest.decision]
  | true => cases historical : request.query.historical <;> simp_all [RecallRequest.decision]

/-! ## A further cause -/

/-- One input of the request is set to a value that excludes, or excludes for more. -/
inductive AddsCause : RecallRequest → RecallRequest → Prop where
  | historicalModel (request : RecallRequest)
      : AddsCause request
          { request with lifecycle := { request.lifecycle with historicalModelAllowed := false } }
  | privacy (request : RecallRequest)
      : AddsCause request
          { request with gates := { request.gates with disclosure := .privacyBlocked } }
  | redaction (request : RecallRequest) (allowed : request.gates.disclosure = .allowed)
      : AddsCause request
          { request with gates := { request.gates with disclosure := .redacted } }
  | termination (request : RecallRequest) (validity : GovernedOwnerValidity)
      (canonical : (validity.validateFor request.lifecycle.ownerRevisionRef).accepted = true)
      (termination : GovernedOwnerTermination)
      (unended : request.lifecycle.validity.termination = none)
      (ended : validity.termination = some termination)
      (excludes : termination.Excludes request.query.historical)
      : AddsCause request
          { request with lifecycle := { request.lifecycle with validity, canonical } }
  | stale (request : RecallRequest)
      : AddsCause request
          { request with lifecycle := { request.lifecycle with stale := true } }
  | obsolete (request : RecallRequest)
      : AddsCause request
          { request with lifecycle := { request.lifecycle with obsolete := true } }
  | premise (request : RecallRequest) (ref : String) (decision : PremiseEvaluationDecision)
      (further : (∃ blocked, request.Applies (.premise blocked)) → decision = .privacyBlocked)
      : AddsCause request
          { request with gates := { request.gates with requiredPremise := .blocked ref decision } }
  | drop (request : RecallRequest) (drop : GovernedProfileBudgetDrop)
      (further : dropReasons request.gates.profileBudgetDrop ⊆ dropReasons drop)
      : AddsCause request
          { request with gates := { request.gates with profileBudgetDrop := drop } }
  | tombstone (request : RecallRequest)
      : AddsCause request
          { request with lifecycle := { request.lifecycle with tombstoned := true } }

/-- Causes that stay leave their reasons. -/
theorem mem_collected_of_applies {after : RecallRequest} {cause : ExclusionCause}
    (listed : reason ∈ cause.reasons) (applies : after.Applies cause)
    : reason ∈ after.collected :=
  mem_collected.mpr ⟨cause, applies, listed⟩

/-- What a further cause can hide: redaction behind a privacy block, and a tombstone behind a
termination.
-/
theorem AddsCause.keeps {after : RecallRequest} (adds : AddsCause request after)
    {cause : ExclusionCause} (applies : request.Applies cause) (listed : reason ∈ cause.reasons)
    : reason ∈ after.collected
      ∨ (reason = .redacted ∧ privacyBlocked ∈ after.collected)
      ∨ (reason = .tombstoned ∧ request.lifecycle.validity.termination = none
        ∧ after.lifecycle.validity.termination.isSome = true) := by
  cases adds with
  | historicalModel =>
      refine Or.inl (mem_collected_of_applies listed ?_)
      cases cause <;> first | exact applies | exact ⟨applies.1, rfl⟩
  | privacy =>
      have blocked : privacyBlocked ∈ RecallRequest.collected
          { request with gates := { request.gates with disclosure := .privacyBlocked } } :=
        mem_collected.mpr ⟨.privacy, rfl, by simp [ExclusionCause.reasons]⟩
      cases cause with
      | redaction => exact Or.inr (Or.inl ⟨by simpa [ExclusionCause.reasons] using listed, blocked⟩)
      | privacy =>
          obtain rfl : reason = .privacyBlocked := by simpa [ExclusionCause.reasons] using listed
          exact Or.inl blocked
      | _ => exact Or.inl (mem_collected_of_applies listed applies)
  | redaction allowed =>
      refine Or.inl (mem_collected_of_applies listed ?_)
      cases cause <;> simp_all [RecallRequest.Applies]
  | termination validity canonical termination unended ended excludes =>
      cases cause with
      | tombstone =>
          refine Or.inr (Or.inr ⟨by simpa [ExclusionCause.reasons] using listed, unended, ?_⟩)
          simp [ended]
      | termination other => simp [RecallRequest.Applies, unended] at applies
      | _ => exact Or.inl (mem_collected_of_applies listed applies)
  | stale =>
      refine Or.inl (mem_collected_of_applies listed ?_)
      cases cause <;> first | exact applies | rfl
  | obsolete =>
      refine Or.inl (mem_collected_of_applies listed ?_)
      cases cause <;> first | exact applies | rfl
  | premise ref decision further =>
      cases cause with
      | premise blocked =>
          obtain rfl := further ⟨blocked, applies⟩
          refine Or.inl (mem_collected.mpr ⟨.premise .privacyBlocked, ⟨ref, rfl⟩, ?_⟩)
          cases blocked <;> simp_all [ExclusionCause.reasons]
      | _ => exact Or.inl (mem_collected_of_applies listed applies)
  | drop drop further =>
      refine Or.inl (mem_collected_of_applies listed ?_)
      cases cause <;> first | exact applies | exact further applies
  | tombstone =>
      refine Or.inl (mem_collected_of_applies listed ?_)
      cases cause <;> first | exact applies | exact ⟨rfl, applies.2⟩

theorem AddsCause.stays_excluded {after : RecallRequest} (adds : AddsCause request after)
    (excluded : request.collected ≠ [])
    : after.collected ≠ [] := by
  obtain ⟨reason, member⟩ := List.exists_mem_of_ne_nil _ excluded
  obtain ⟨cause, applies, listed⟩ := mem_collected.mp member
  rcases adds.keeps applies listed with kept | ⟨-, blocked⟩ | ⟨-, unended, isEnded⟩
  · exact List.ne_nil_of_mem kept
  · exact List.ne_nil_of_mem blocked
  · intro none
    cases adds with
    | termination validity canonical termination _ ended excludes =>
        exact collected_eq_nil.mp none (.termination termination) ⟨ended, excludes⟩
    | _ => simp [unended] at isEnded

/-! ## Eligibility is absence of cause -/

/-- What a decision says of the causes of its request. -/
structure ExactEligibility (request : RecallRequest) : Prop where
  /-- A decision is made exactly when the query addresses the revision, and passes its check. -/
  decided : (∃ decision, request.decide = .ok decision) ↔ request.Addresses
  contract : request.decide ≠ .error (.config "governed_recall_eligibility"
    "derived decision failed its canonical contract")
  accepted : ∀ decision, request.decide = .ok decision → decision.validateContract.accepted = true
  /-- Without a cause the revision is eligible in the way it was asked for, else excluded. -/
  eligible : ∀ decision, request.decide = .ok decision
    → ((∀ cause, ¬ request.Applies cause)
        → decision.eligibility
          = if request.query.historical then .eligibleHistoricalAsOf else .eligibleCurrent)
      ∧ ((∃ cause, request.Applies cause) → decision.eligibility = .excluded)
  terminal : ∀ termination ∈ request.lifecycle.validity.termination,
    termination ∈ [GovernedOwnerTermination.invalidated, .deleted, .forgotten, .corrected]
    → ∀ decision, request.decide = .ok decision → decision.eligibility = .excluded
  replaced : ∀ termination ∈ request.lifecycle.validity.termination,
    termination ∈ [GovernedOwnerTermination.superseded, .revised]
    → request.query.historical = false
    → ∀ decision, request.decide = .ok decision → decision.eligibility = .excluded
  hidden : ∀ decision, request.decide = .ok decision
    → ¬ (privacyBlocked ∈ decision.reasons ∧ redacted ∈ decision.reasons)
  /-- A further cause removes no reason but redaction, and by a termination the tombstone. -/
  further : ∀ after, AddsCause request after → after.GateValid
    → ∀ decision, request.decide = .ok decision
    → ∀ next, after.decide = .ok next
    → (∀ reason ∈ decision.reasons, reason ∈ next.reasons ∨ reason = .redacted
        ∨ (reason = .tombstoned ∧ request.lifecycle.validity.termination = none
          ∧ after.lifecycle.validity.termination.isSome = true))
      ∧ (decision.eligibility = .excluded → next.eligibility = .excluded)

theorem excluded_of_applies (cause : ExclusionCause) (applies : request.Applies cause)
    : request.decision.eligibility = .excluded :=
  excluded_iff.mpr fun none => collected_eq_nil.mp none cause applies

theorem eligibility_exact (request : RecallRequest) (valid : request.GateValid)
    : ExactEligibility request := by
  have decided : ∀ decision, request.decide = .ok decision
      ↔ request.Addresses ∧ decision = request.decision :=
    fun decision => decide_eq_ok valid
  refine ⟨⟨?_, ?_⟩, decide_ne_contract_error valid, ?_, ?_, ?_, ?_, ?_, ?_⟩
  · rintro ⟨decision, made⟩
    exact ((decided decision).mp made).1
  · exact fun addresses => ⟨_, (decided _).mpr ⟨addresses, rfl⟩⟩
  · rintro decision made
    obtain ⟨-, rfl⟩ := (decided decision).mp made
    exact decision_accepted valid
  · rintro decision made
    obtain ⟨-, rfl⟩ := (decided decision).mp made
    refine ⟨fun none => ?_, fun ⟨cause, applies⟩ => excluded_of_applies cause applies⟩
    have empty := decidedReasons_eq_nil.mpr (collected_eq_nil.mpr none)
    simp [RecallRequest.decision, empty]
  · rintro termination ended terminal decision made
    obtain ⟨-, rfl⟩ := (decided decision).mp made
    refine excluded_of_applies (.termination termination) ⟨ended, fun _ => ?_⟩
    cases termination <;> simp_all
  · rintro termination ended _ current decision made
    obtain ⟨-, rfl⟩ := (decided decision).mp made
    refine excluded_of_applies (.termination termination) ⟨ended, fun historical => ?_⟩
    simp [current] at historical
  · rintro decision made ⟨blocked, hidden⟩
    obtain ⟨-, rfl⟩ := (decided decision).mp made
    exact (mem_decidedReasons.mp hidden).2 rfl (mem_decidedReasons.mp blocked).1
  · intro after adds validAfter decision made next madeNext
    obtain ⟨-, rfl⟩ := (decided decision).mp made
    obtain ⟨-, rfl⟩ := (decide_eq_ok validAfter).mp madeNext
    refine ⟨fun reason member => ?_, fun excluded => ?_⟩
    · obtain ⟨cause, applies, listed⟩ := mem_collected.mp (mem_decidedReasons.mp member).1
      rcases adds.keeps applies listed with kept | ⟨redacted, -⟩ | tombstoned
      · by_cases redacted : reason = .redacted
        · exact Or.inr (Or.inl redacted)
        · exact Or.inl (mem_decidedReasons.mpr ⟨kept, fun same => absurd same redacted⟩)
      · exact Or.inr (Or.inl redacted)
      · exact Or.inr (Or.inr tombstoned)
    · exact excluded_iff.mpr (adds.stays_excluded (excluded_iff.mp excluded))

/-- The only revision of an owner, valid from time one, that left a tombstone. -/
def tombstonedFacts : GovernedRecallLifecycleFacts where
  ownerRevisionRef := ⟨⟨.longTerm, "a"⟩, 1⟩
  validity := ⟨1, none, 1, none, none, none⟩
  stale := false
  obsolete := false
  tombstoned := true
  historicalModelAllowed := true
  canonical := by decide +kernel

def openGates : GovernedRecallAuthorityGates :=
  ⟨.allowed, .notApplicable, .none⟩

theorem tombstoned_exact
    : ExactEligibility ⟨tombstonedFacts, .current 9, openGates⟩
      ∧ (RecallRequest.decide ⟨tombstonedFacts, .current 9, openGates⟩).map (·.reasons)
        = .ok [.tombstoned] :=
  ⟨eligibility_exact _ (by unfold RecallRequest.GateValid; decide +kernel), by decide +kernel⟩

/-- The revision is invalidated at time five: the tombstone is no longer named as a reason. -/
theorem invalidation_hides_tombstone
    : ∃ before after decision next, AddsCause before after
        ∧ before.decide = .ok decision ∧ after.decide = .ok next
        ∧ GovernedRecallEligibilityReason.tombstoned ∈ decision.reasons
        ∧ GovernedRecallEligibilityReason.tombstoned ∉ next.reasons := by
  have adds := AddsCause.termination ⟨tombstonedFacts, .current 9, openGates⟩
    ⟨1, some 5, 1, none, none, some .invalidated⟩ (by decide +kernel) .invalidated rfl rfl
    (fun _ => by decide)
  refine ⟨_, _, _, _, adds, decide_eq_ok (by unfold RecallRequest.GateValid; decide +kernel) |>.mpr
    ⟨?_, rfl⟩, decide_eq_ok (by unfold RecallRequest.GateValid; decide +kernel) |>.mpr ⟨?_, rfl⟩,
    by decide +kernel, by decide +kernel⟩
  · exact addresses_iff.mpr (by decide +kernel)
  · exact addresses_iff.mpr (by decide +kernel)

end BeetleMemory.LongTerm

import BeetleMemory.Lib.Fallible
import BeetleMemory.Store.Planner

/-! What a successful plan establishes, check by check. -/

namespace BeetleMemory.Store

open Std

variable {Value : Type}

/-- An accepted document precondition holds of the documents read. -/
theorem validatePrecondition_ok [DecidableEq Value] {capacity : StoreCapacityBudget}
    {json : ExtTreeMap Address Value} {seen next : ExtTreeSet Address}
    {precondition : StoreJsonPrecondition Value}
    (ok : validatePrecondition capacity json seen precondition = .ok next)
    : json[precondition.address]? = precondition.expected := by
  simp only [validatePrecondition, Fallible.bind_eq_ok, require_eq_ok] at ok
  obtain ⟨_, _, _, _, _, observed, _⟩ := ok
  simpa using observed

theorem validatePreconditions_ok [DecidableEq Value] {capacity : StoreCapacityBudget}
    {preconditions : List (StoreJsonPrecondition Value)} {json : ExtTreeMap Address Value}
    {seen : ExtTreeSet Address}
    (ok : validatePreconditions capacity preconditions json = .ok seen)
    : ∀ p ∈ preconditions, json[p.address]? = p.expected :=
  Fallible.foldlM_forall (fun _ _ _ step => validatePrecondition_ok step) ok

/-- An accepted blob precondition holds of the digest of the blob read. -/
theorem validateBlobPrecondition_ok {encoding : Encoding Value} {capacity : StoreCapacityBudget}
    {blobs : ExtTreeMap Address Bytes} {seen next : ExtTreeSet Address}
    {precondition : StoreBlobPrecondition}
    (ok : validateBlobPrecondition encoding capacity blobs seen precondition = .ok next)
    : blobs[precondition.address]?.map (blobDigest encoding) = precondition.expectedDigest := by
  simp only [validateBlobPrecondition, Fallible.bind_eq_ok, require_eq_ok] at ok
  obtain ⟨_, _, _, _, _, _, _, observed, _⟩ := ok
  simpa using observed

theorem validateBlobPreconditions_ok {encoding : Encoding Value}
    {capacity : StoreCapacityBudget} {preconditions : List StoreBlobPrecondition}
    {blobs : ExtTreeMap Address Bytes} {seen : ExtTreeSet Address}
    (ok : validateBlobPreconditions encoding capacity preconditions blobs = .ok seen)
    : ∀ p ∈ preconditions,
        blobs[p.address]?.map (blobDigest encoding) = p.expectedDigest :=
  Fallible.foldlM_forall (fun _ _ _ step => validateBlobPrecondition_ok step) ok

/-- The usage a plan ends with is within the limits it was planned under. -/
structure WithinLimits (capacity : StoreCapacityBudget) (usage : StoreBackendUsage) : Prop where
  kvEntries : usage.kvEntries ≤ capacity.kvMaxEntries
  blobBytes : usage.blobBytes ≤ capacity.blobMaxBytes
  eventCount : usage.eventCount ≤ capacity.eventLogMaxItems

theorem enforceUsage_ok {capacity : StoreCapacityBudget} {usage : StoreBackendUsage}
    {done : Unit} (ok : enforceUsage capacity usage = .ok done)
    : WithinLimits capacity usage := by
  simp only [enforceUsage, Fallible.bind_eq_ok, require_eq_ok, decide_eq_true_eq] at ok
  obtain ⟨_, kv, _, blobs, events⟩ := ok
  exact ⟨kv, blobs, events⟩

/-- The checks behind an accepted plan, with the mutation loop's final state. -/
structure Planned [DecidableEq Value] (encoding : Encoding Value)
    (admission : StoreTransactionAdmission) (request : StoreTransactionRequest Value)
    (context : StoreTransactionContext Value) (state : PlanState Value)
    (plan : StoreTransactionPlan Value) : Prop where
  named : trimIsEmpty request.transactionId = false
  preconditions : ∀ p ∈ request.preconditions,
    context.touched.json[p.address]? = p.expected
  blobPreconditions : ∀ p ∈ request.blobPreconditions,
    context.touched.blobs[p.address]?.map (blobDigest encoding) = p.expectedDigest
  mutations : planMutations admission.operationCapacity
    (materializeConditionalMutations encoding request.mutations context.touched) context
      = .ok state
  limits : WithinLimits admission.operationCapacity
    (nextUsage context.usage context.touched state)
  effective : plan.effectiveMutations
    = materializeConditionalMutations encoding request.mutations context.touched
  nextTouched : plan.nextTouched = state.next
  report : plan.report =
    { transactionId := request.transactionId
      changedJson := state.changedJson.size
      changedBlobs := state.changedBlobs.size
      appendedEvents := state.eventIds.length
      eventIds := state.eventIds
      budgetReport := backendBudgetReport admission context.usage
        (nextUsage context.usage context.touched state) }

theorem applyTransaction_ok [DecidableEq Value] {encoding : Encoding Value}
    {rules : OwnerRules Value} {admission : StoreTransactionAdmission}
    {request : StoreTransactionRequest Value} {context : StoreTransactionContext Value}
    {plan : StoreTransactionPlan Value}
    (ok : applyTransaction encoding rules admission request context = .ok plan)
    : ∃ state, Planned encoding admission request context state plan := by
  simp only [applyTransaction, Fallible.bind_eq_ok, Fallible.pure_eq_ok] at ok
  obtain ⟨_, named, _, _, _, preconditions, _, blobPreconditions, state, mutations, _, _, _,
    limits, rfl⟩ := ok
  refine ⟨state, ?_⟩
  exact {
    named := by simpa using named
    preconditions := validatePreconditions_ok preconditions
    blobPreconditions := validateBlobPreconditions_ok blobPreconditions
    mutations := mutations
    limits := enforceUsage_ok limits
    effective := rfl
    nextTouched := rfl
    report := rfl
  }

/-! ## Dependency expansion -/

/-- (Shows touched whole addresses) says that the touched documents are documents of the
whole store and include every given address that the store holds.
-/
structure Shows (touched whole : ExtTreeMap Address Value) (addresses : Address → Prop)
    : Prop where
  within : OrderedMap.Within touched whole
  covers : ∀ a, addresses a → touched[a]? = whole[a]?

/-- Inserting what the store holds keeps a view faithful. -/
theorem Shows.insert {touched whole : ExtTreeMap Address Value} {addresses : Address → Prop}
    (h : Shows touched whole addresses) {address : Address} {value : Value}
    (held : whole[address]? = some value)
    : Shows (touched.insert address value) whole addresses where
  within := h.within.insert held
  covers a ha := by
    rw [ExtTreeMap.getElem?_insert]
    split
    next same =>
      rw [Std.compare_eq_iff_eq] at same
      rw [← same, held]
    next => exact h.covers a ha

/-- The dependency walk only adds documents that a sound reader found in the store, by
induction on the fuel.
-/
theorem walkDependencies_shows {encoding : Encoding Value} {rules : OwnerRules Value}
    {capacity : StoreCapacityBudget}
    {readJson : Address → Nat → Except Error (Option Value)}
    {whole touched result : ExtTreeMap Address Value} {addresses : Address → Prop}
    (sound : ∀ a limit read, readJson a limit = .ok read → read = whole[a]?)
    {fuel : Nat} {visited pending : ExtTreeSet Address} {bytes : Nat}
    (run : walkDependencies encoding rules capacity readJson fuel visited pending bytes touched
      = .ok result)
    (h : Shows touched whole addresses)
    : Shows result whole addresses := by
  induction fuel generalizing visited pending bytes touched with
  | zero => simp [walkDependencies] at run
  | succ fuel ih =>
      simp only [walkDependencies] at run
      split at run
      next => exact (Except.ok.inj run) ▸ h
      next address _ =>
        split at run
        next => exact ih run h
        next =>
          simp only [Fallible.bind_eq_ok] at run
          obtain ⟨_, _, _, _, read, found, rest⟩ := run
          have held := sound address _ read found
          cases read with
          | none => exact ih rest h
          | some value =>
              simp only [Fallible.bind_eq_ok] at rest
              obtain ⟨_, _, _, _, later⟩ := rest
              exact ih later (h.insert held.symm)

theorem expandOwnerTransactionDependencies_shows {encoding : Encoding Value}
    {rules : OwnerRules Value} {request : StoreTransactionRequest Value}
    {capacity : StoreCapacityBudget}
    {readJson : Address → Nat → Except Error (Option Value)}
    {whole touched result : ExtTreeMap Address Value} {addresses : Address → Prop}
    (sound : ∀ a limit read, readJson a limit = .ok read → read = whole[a]?)
    (ok : expandOwnerTransactionDependencies encoding rules request capacity touched readJson
      = .ok result)
    (h : Shows touched whole addresses)
    : Shows result whole addresses := by
  simp only [expandOwnerTransactionDependencies, Fallible.bind_eq_ok] at ok
  obtain ⟨_, _, _, _, _, _, walk⟩ := ok
  exact walkDependencies_shows sound walk h

end BeetleMemory.Store

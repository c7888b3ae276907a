import BeetleMemory.Store.InMemoryCommit

/-! Planning over a sparse read set is sound for the whole store.
The meaning of a request is given by applying its mutations to the whole state; a commit
that was planned from the touched part alone has that meaning, and its report counts the
whole state.
-/

namespace BeetleMemory.Store

open Std

variable {Value : Type}

/-! ## The meaning of a request -/

/-- (mutate encoding observed state mutation) is what one mutation means on a whole state.
A conditional delete looks for its document or blob in the observed state.
-/
def mutate (encoding : Encoding Value) (observed state : InMemoryStoreEngineState Value)
    : StoreEngineMutation Value → InMemoryStoreEngineState Value
  | .putJson address value => { state with json := state.json.insert address value }
  | .deleteJson address => { state with json := state.json.erase address }
  | .deleteJsonIfPresent address template =>
      match observed.json[address]? with
      | none => state
      | some value =>
          { state with
            json := state.json.erase address
            events := state.events ++ [template.materializeJson encoding value]
            eventIds := state.eventIds.insert template.eventId }
  | .putBlob address value => { state with blobs := state.blobs.insert address value }
  | .deleteBlob address => { state with blobs := state.blobs.erase address }
  | .deleteBlobIfPresent address template =>
      match observed.blobs[address]? with
      | none => state
      | some value =>
          { state with
            blobs := state.blobs.erase address
            events := state.events ++ [template.materializeBlob encoding value]
            eventIds := state.eventIds.insert template.eventId }
  | .appendEvent event =>
      { state with
        events := state.events ++ [event]
        eventIds := state.eventIds.insert event.eventId }

/-- The mutations one after another, each looking at the state its predecessors left. -/
def mutateInOrder (encoding : Encoding Value) (state : InMemoryStoreEngineState Value)
    (mutations : List (StoreEngineMutation Value))
    : InMemoryStoreEngineState Value :=
  mutations.foldl (fun state mutation => mutate encoding state state mutation) state

/-- The mutations one after another, where every conditional delete looks at the state
before the transaction.
-/
def mutateAgainstBefore (encoding : Encoding Value) (before : InMemoryStoreEngineState Value)
    (mutations : List (StoreEngineMutation Value))
    : InMemoryStoreEngineState Value :=
  mutations.foldl (mutate encoding before) before

/-! ## The materialized plan has that meaning -/

theorem applyInMemoryTransactionPlan_append {state middle : InMemoryStoreEngineState Value}
    {first second : List (StoreEngineMutation Value)}
    (applied : applyInMemoryTransactionPlan state first = (middle, .ok ()))
    : applyInMemoryTransactionPlan state (first ++ second)
      = applyInMemoryTransactionPlan middle second := by
  induction first generalizing state with
  | nil =>
      simp only [applyInMemoryTransactionPlan, Prod.mk.injEq, and_true] at applied
      rw [applied, List.nil_append]
  | cons mutation rest ih =>
      simp only [applyInMemoryTransactionPlan, List.cons_append] at applied ⊢
      split at applied
      next => exact ih applied
      next => simp at applied

/-- The touched part answers every conditional delete as the state before does. -/
def AnswersFor (current : BackendTransactionState Value)
    (before : InMemoryStoreEngineState Value) (mutation : StoreEngineMutation Value) : Prop :=
  CoveredBy (ReadAt current.json before.json) (ReadAt current.blobs before.blobs) mutation

theorem materializeMutation_applied {encoding : Encoding Value}
    {current : BackendTransactionState Value} {before state : InMemoryStoreEngineState Value}
    {mutation : StoreEngineMutation Value} (answers : AnswersFor current before mutation)
    : applyInMemoryTransactionPlan state (materializeMutation encoding current mutation)
      = (mutate encoding before state mutation, .ok ()) := by
  cases mutation with
  | deleteJsonIfPresent address template =>
      have same : current.json[address]? = before.json[address]? := answers.1 address rfl
      simp only [materializeMutation, mutate, same]
      cases before.json[address]? <;> rfl
  | deleteBlobIfPresent address template =>
      have same : current.blobs[address]? = before.blobs[address]? := answers.2 address rfl
      simp only [materializeMutation, mutate, same]
      cases before.blobs[address]? <;> rfl
  | putJson _ _ | deleteJson _ | putBlob _ _ | deleteBlob _ | appendEvent _ => rfl

/-- Carrying out the materialized mutations is the meaning of the request, by induction on
the mutations.
-/
theorem materializeConditionalMutations_applied {encoding : Encoding Value}
    {current : BackendTransactionState Value} {before state : InMemoryStoreEngineState Value}
    {mutations : List (StoreEngineMutation Value)}
    (answers : ∀ m ∈ mutations, AnswersFor current before m)
    : applyInMemoryTransactionPlan state
        (materializeConditionalMutations encoding mutations current)
      = (mutations.foldl (mutate encoding before) state, .ok ()) := by
  induction mutations generalizing state with
  | nil => rfl
  | cons mutation rest ih =>
      rw [materializeConditionalMutations, List.flatMap_cons,
        applyInMemoryTransactionPlan_append
          (materializeMutation_applied (answers mutation (by simp)))]
      exact ih (fun m hm => answers m (by simp [hm]))

/-- A mutation leaves every document it does not name alone. -/
theorem mutate_json_frame {encoding : Encoding Value}
    {observed state : InMemoryStoreEngineState Value} {mutation : StoreEngineMutation Value}
    {a : Address} (unnamed : mutation.jsonAddress? ≠ some a)
    : (mutate encoding observed state mutation).json[a]? = state.json[a]? := by
  cases mutation <;>
    simp_all only [mutate, StoreEngineMutation.jsonAddress?, ne_eq, Option.some.injEq] <;>
    (try split) <;>
    simp_all [ExtTreeMap.getElem?_insert, ExtTreeMap.getElem?_erase]

theorem mutate_blobs_frame {encoding : Encoding Value}
    {observed state : InMemoryStoreEngineState Value} {mutation : StoreEngineMutation Value}
    {a : Address} (unnamed : mutation.blobAddress? ≠ some a)
    : (mutate encoding observed state mutation).blobs[a]? = state.blobs[a]? := by
  cases mutation <;>
    simp_all only [mutate, StoreEngineMutation.blobAddress?, ne_eq, Option.some.injEq] <;>
    (try split) <;>
    simp_all [ExtTreeMap.getElem?_insert, ExtTreeMap.getElem?_erase]

/-- Documents that no mutation names survive the whole list, by induction on it. -/
theorem foldl_mutate_json_frame {encoding : Encoding Value}
    {observed state : InMemoryStoreEngineState Value}
    {mutations : List (StoreEngineMutation Value)} {a : Address}
    (unnamed : ∀ m ∈ mutations, m.jsonAddress? ≠ some a)
    : (mutations.foldl (mutate encoding observed) state).json[a]? = state.json[a]? := by
  induction mutations generalizing state with
  | nil => rfl
  | cons mutation rest ih =>
      rw [List.foldl_cons, ih (fun m hm => unnamed m (by simp [hm]))]
      exact mutate_json_frame (unnamed mutation (by simp))

theorem foldl_mutate_blobs_frame {encoding : Encoding Value}
    {observed state : InMemoryStoreEngineState Value}
    {mutations : List (StoreEngineMutation Value)} {a : Address}
    (unnamed : ∀ m ∈ mutations, m.blobAddress? ≠ some a)
    : (mutations.foldl (mutate encoding observed) state).blobs[a]? = state.blobs[a]? := by
  induction mutations generalizing state with
  | nil => rfl
  | cons mutation rest ih =>
      rw [List.foldl_cons, ih (fun m hm => unnamed m (by simp [hm]))]
      exact mutate_blobs_frame (unnamed mutation (by simp))

/-! ## Accounting and the main result -/

section Commit

variable [DecidableEq Value] {engine : InMemoryStoreEngine} {encoding : Encoding Value}
  {rules : OwnerRules Value} {request : StoreTransactionRequest Value}
  {admission : StoreTransactionAdmission} {nowSecs : Nat}
  {state next : InMemoryStoreEngineState Value} {context : StoreTransactionContext Value}
  {final : PlanState Value} {plan : StoreTransactionPlan Value}

/-- The incremental accounting over the touched part gives the true counts of the new state,
since the plan's edits are the whole state's edits.
-/
theorem CommitStep.usage_eq
    (step : CommitStep encoding request admission state next context final plan)
    : nextUsage context.usage context.touched final = next.usage := by
  have json := step.simulates.json.size_eq step.reads.json.within.part
  have blobs := step.simulates.blobs.size_eq step.reads.blobs.within.part
  have jsonPart := step.reads.json.within.part.total_le (fun _ _ => 1)
  have blobsPart := step.reads.blobs.within.part.total_le (fun _ _ => 1)
  have bytes := step.simulates.blobs.total_eq (fun _ value => value.length)
    step.reads.blobs.within.part
  have events : next.events.length = state.events.length + final.eventIds.length := by
    rw [step.simulates.events, ← step.simulates.newIds]
    simp
  simp only [← OrderedMap.size_eq_total] at jsonPart blobsPart
  simp only [nextUsage, InMemoryStoreEngineState.usage, step.reads.usage, blobBytes,
    StoreBackendUsage.mk.injEq]
  refine ⟨?_, bytes.symm, events.symm⟩
  omega

/-- The new state is the meaning of the request on the old one. -/
theorem CommitStep.next_eq
    (step : CommitStep encoding request admission state next context final plan)
    : next = mutateAgainstBefore encoding state request.mutations := by
  have answers : ∀ m ∈ request.mutations, AnswersFor context.touched state m := by
    intro m hm
    exact ⟨fun a ha => step.reads.json.covers a (request.coversJsonMutations m hm a ha),
      fun a ha => step.reads.blobs.covers a (request.coversBlobMutations m hm a ha)⟩
  have applied := step.applied
  rw [step.planned.effective, materializeConditionalMutations_applied answers] at applied
  exact (Prod.mk.inj applied).1.symm

/-- Sparse planning is sound: an accepted commit leaves exactly the state its request means
on the whole store, where a conditional delete is judged by the state before the
transaction. Addresses it does not name are unchanged, its report counts the whole new
state, and that state is within the limits it was planned with.
-/
theorem commit_means_request_on_whole_state {report : StoreTransactionReport}
    (succeeded : engine.commitTransactionAdmitted encoding rules request admission nowSecs state
      = (next, .ok report))
    : next = mutateAgainstBefore encoding state request.mutations
      ∧ (∀ a, (∀ m ∈ request.mutations, m.jsonAddress? ≠ some a)
          → next.json[a]? = state.json[a]?)
      ∧ (∀ a, (∀ m ∈ request.mutations, m.blobAddress? ≠ some a)
          → next.blobs[a]? = state.blobs[a]?)
      ∧ report.budgetReport = backendBudgetReport admission
          ⟨state.json.size + state.blobs.size, blobBytes state.blobs, state.events.length⟩
          ⟨next.json.size + next.blobs.size, blobBytes next.blobs, next.events.length⟩
      ∧ report.budgetReport.remainingKvEntries + (next.json.size + next.blobs.size)
          = admission.operationCapacity.kvMaxEntries
      ∧ report.budgetReport.remainingBlobBytes + blobBytes next.blobs
          = admission.operationCapacity.blobMaxBytes
      ∧ report.budgetReport.remainingEvents + next.events.length
          = admission.operationCapacity.eventLogMaxItems := by
  obtain ⟨context, final, plan, step, rfl⟩ := commitTransactionAdmitted_ok succeeded
  have counted : plan.report.budgetReport
      = backendBudgetReport admission state.usage next.usage := by
    rw [step.planned.report, step.usage_eq, step.reads.usage]
  have limits : WithinLimits admission.operationCapacity next.usage :=
    step.usage_eq ▸ step.planned.limits
  refine ⟨step.next_eq, ?_, ?_, counted, ?_, ?_, ?_⟩
  · intro a unnamed
    rw [step.next_eq]
    exact foldl_mutate_json_frame unnamed
  · intro a unnamed
    rw [step.next_eq]
    exact foldl_mutate_blobs_frame unnamed
  · rw [counted]
    exact Nat.sub_add_cancel limits.kvEntries
  · rw [counted]
    exact Nat.sub_add_cancel limits.blobBytes
  · rw [counted]
    exact Nat.sub_add_cancel limits.eventCount

end Commit

/-! ## A conditional delete after a put -/

/-- JSON documents that are booleans, with their serialized text. No hash is taken of them
below.
-/
def booleanEncoding : Encoding Bool where
  toVec value := textBytes (if value then "true" else "false")
  contentHash _ := ""
  sha256 _ := ""

/-- Owner rules for namespaces that no governed owner claims. -/
def ungovernedRules : OwnerRules Bool where
  dependencies _ _ := ([], none)
  validate _ _ _ _ _ := .ok ()

def smallCapacity : StoreCapacityBudget where
  metricSourceMaxItems := 1
  eventLogMaxItems := 4
  kvMaxEntries := 4
  blobMaxBytes := 64
  snapshotMaxBytes := 64
  logicalNamespaceMaxBytes := 16
  logicalKeyMaxBytes := 16
  eventRecordKeyMaxBytes := 16
  exportMaxBytes := 64
  importMaxBytes := 64

def smallEngine : InMemoryStoreEngine where
  capacity := smallCapacity
  admissionAuthority := 0

def smallAdmission : StoreTransactionAdmission :=
  .forNonproductionHarness smallCapacity 0

def deleteTemplate : ConditionalDeleteEventTemplate where
  eventId := "deleted"
  kind := .memoryDelete
  scope := .system "test"
  plane := ""
  recordKey := ""
  timestampUnixSecs := 1
  payload := ∅

/-- Put a new document, then delete it if it is present. -/
def putThenDeleteIfPresent : StoreTransactionRequest Bool :=
  .new "t" [] [.putJson ⟨"notes", "a"⟩ true, .deleteJsonIfPresent ⟨"notes", "a"⟩ deleteTemplate]

/-- On an empty store this commit is accepted and keeps the document, because the address was
absent before the transaction; the mutations one after another would have removed it.
-/
theorem put_then_conditional_delete_keeps_document
    : (smallEngine.commitTransactionAdmitted booleanEncoding ungovernedRules
          putThenDeleteIfPresent smallAdmission 0 .empty).2.isOk
      ∧ (smallEngine.commitTransactionAdmitted booleanEncoding ungovernedRules
          putThenDeleteIfPresent smallAdmission 0 .empty).1.json[(⟨"notes", "a"⟩ : Address)]?
        = some true
      ∧ (mutateInOrder booleanEncoding .empty
          putThenDeleteIfPresent.mutations).json[(⟨"notes", "a"⟩ : Address)]?
        = none := by
  decide

/-- Put a document, delete one that is there, and log an event. -/
def mixedRequest : StoreTransactionRequest Bool :=
  .new "t" [.absent ⟨"notes", "b"⟩]
    [.putJson ⟨"notes", "b"⟩ false, .deleteJsonIfPresent ⟨"notes", "a"⟩ deleteTemplate,
      .putBlob ⟨"files", "x"⟩ [1, 2, 3]]

def oneDocument : InMemoryStoreEngineState Bool :=
  { json := (∅ : ExtTreeMap Address Bool).insert ⟨"notes", "a"⟩ true
    blobs := ∅
    events := []
    eventIds := ∅ }

theorem commit_means_mixed_request
    : (smallEngine.commitTransactionAdmitted booleanEncoding ungovernedRules mixedRequest
          smallAdmission 0 oneDocument).1
      = mutateAgainstBefore booleanEncoding oneDocument mixedRequest.mutations := by
  have succeeded : smallEngine.commitTransactionAdmitted booleanEncoding ungovernedRules
      mixedRequest smallAdmission 0 oneDocument
      = ((smallEngine.commitTransactionAdmitted booleanEncoding ungovernedRules mixedRequest
          smallAdmission 0 oneDocument).1,
        .ok
          { transactionId := "t"
            changedJson := 2
            changedBlobs := 1
            appendedEvents := 1
            eventIds := ["deleted"]
            budgetReport :=
              { admissionReportId := "nonproduction-replay-harness"
                requiredEvents := 1
                remainingEvents := 3
                requiredKvEntries := 1
                remainingKvEntries := 2
                requiredBlobBytes := 3
                remainingBlobBytes := 61 } }) :=
    Prod.ext rfl rfl
  exact (commit_means_request_on_whole_state succeeded).1

end BeetleMemory.Store

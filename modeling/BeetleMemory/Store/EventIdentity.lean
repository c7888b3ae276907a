import BeetleMemory.Lib.Runs
import BeetleMemory.Store.InMemoryCommit
import BeetleMemory.Store.Replacement

/-! Event ids are unique over every run of the in-memory backend.
Commits append, scoped replacements filter and extend, snapshot replacements start over;
each keeps the log free of duplicates and the id set equal to the ids of the log.
-/

namespace BeetleMemory.Store

open Std

variable {Value : Type}

def eventIdsOf (events : List MemoryStoreEvent) : List String :=
  events.map (·.eventId)

/-- No two events of the log share an id, and the id set is exactly the ids of the log. -/
structure UniqueEvents (state : InMemoryStoreEngineState Value) : Prop where
  nodup : (eventIdsOf state.events).Nodup
  ids : ∀ id, id ∈ state.eventIds ↔ id ∈ eventIdsOf state.events

theorem uniqueEvents_empty
    : UniqueEvents (InMemoryStoreEngineState.empty : InMemoryStoreEngineState Value) := by
  constructor <;> simp [InMemoryStoreEngineState.empty, eventIdsOf]

/-! ## Transaction commits -/

/-- The ids a plan has appended so far are distinct and new, and come from its mutations. -/
structure FreshIds (existing : ExtTreeSet String) (done : List (StoreEngineMutation Value))
    (state : PlanState Value) : Prop where
  known : ∀ id, id ∈ state.knownEventIds ↔ id ∈ existing ∨ id ∈ state.eventIds
  nodup : state.eventIds.Nodup
  fresh : ∀ id ∈ state.eventIds, id ∉ existing
  origin : ∀ id ∈ state.eventIds, ∃ event, .appendEvent event ∈ done ∧ event.eventId = id

theorem FreshIds.weaken {existing : ExtTreeSet String}
    {done : List (StoreEngineMutation Value)} {state next : PlanState Value}
    (h : FreshIds existing done state) (mutation : StoreEngineMutation Value)
    (known : next.knownEventIds = state.knownEventIds) (ids : next.eventIds = state.eventIds)
    : FreshIds existing (done ++ [mutation]) next where
  known := by rw [known, ids]; exact h.known
  nodup := by rw [ids]; exact h.nodup
  fresh := by rw [ids]; exact h.fresh
  origin id member := by
    rw [ids] at member
    obtain ⟨event, there, same⟩ := h.origin id member
    exact ⟨event, List.mem_append_left _ there, same⟩

/-- One planned mutation keeps the appended ids fresh, by cases on the mutation. -/
theorem FreshIds.step {existing : ExtTreeSet String}
    {done : List (StoreEngineMutation Value)} {capacity : StoreCapacityBudget}
    {state next : PlanState Value} {mutation : StoreEngineMutation Value}
    (h : FreshIds existing done state) (ok : planMutation capacity state mutation = .ok next)
    : FreshIds existing (done ++ [mutation]) next := by
  cases mutation with
  | putJson _ _ | deleteJson _ | putBlob _ _ | deleteBlob _ =>
      simp only [planMutation, Fallible.bind_eq_ok, Fallible.pure_eq_ok] at ok
      obtain ⟨_, _, _, _, rfl⟩ := ok
      exact h.weaken _ rfl rfl
  | deleteJsonIfPresent _ _ | deleteBlobIfPresent _ _ => simp [planMutation] at ok
  | appendEvent event =>
      simp only [planMutation, Fallible.bind_eq_ok, Fallible.pure_eq_ok, require_eq_ok] at ok
      obtain ⟨_, _, _, unknown, rfl⟩ := ok
      have new : ¬ (event.eventId ∈ existing ∨ event.eventId ∈ state.eventIds) := by
        rw [← h.known]
        exact OrderedMap.not_contains_iff.mp unknown
      refine { known := ?_, nodup := ?_, fresh := ?_, origin := ?_ }
      · intro id
        simp only [ExtTreeSet.mem_insert, Std.compare_eq_iff_eq, h.known, List.mem_append,
          List.mem_singleton]
        grind
      · rw [List.nodup_append]
        grind [h.nodup]
      · intro id member
        rcases List.mem_append.mp member with old | last
        · exact h.fresh id old
        · rw [List.mem_singleton.mp last]
          exact fun there => new (.inl there)
      · intro id member
        rcases List.mem_append.mp member with old | last
        · obtain ⟨earlier, there, same⟩ := h.origin id old
          exact ⟨earlier, List.mem_append_left _ there, same⟩
        · exact ⟨event, by simp, (List.mem_singleton.mp last).symm⟩

/-- Every event of a materialized plan carries an id that the request announces. -/
theorem mutationEventId_of_materialized {encoding : Encoding Value}
    {mutations : List (StoreEngineMutation Value)} {current : BackendTransactionState Value}
    {event : MemoryStoreEvent}
    (member : .appendEvent event ∈ materializeConditionalMutations encoding mutations current)
    : event.eventId ∈ mutations.filterMap mutationEventId := by
  obtain ⟨mutation, original, materialized⟩ := List.mem_flatMap.mp member
  refine List.mem_filterMap.mpr ⟨mutation, original, ?_⟩
  cases mutation with
  | deleteJsonIfPresent address template =>
      simp only [materializeMutation] at materialized
      split at materialized <;> simp at materialized
      rw [materialized]
      rfl
  | deleteBlobIfPresent address template =>
      simp only [materializeMutation] at materialized
      split at materialized <;> simp at materialized
      rw [materialized]
      rfl
  | appendEvent original => simp_all [materializeMutation, mutationEventId]
  | putJson _ _ | deleteJson _ | putBlob _ _ | deleteBlob _ =>
      simp [materializeMutation] at materialized

/-- An accepted commit appends only events with new, distinct ids. -/
theorem CommitStep.uniqueEvents [DecidableEq Value] {encoding : Encoding Value}
    {request : StoreTransactionRequest Value} {admission : StoreTransactionAdmission}
    {state next : InMemoryStoreEngineState Value} {context : StoreTransactionContext Value}
    {final : PlanState Value} {plan : StoreTransactionPlan Value}
    (step : CommitStep encoding request admission state next context final plan)
    (h : UniqueEvents state)
    : UniqueEvents next := by
  have start : FreshIds context.existingEventIds ([] : List (StoreEngineMutation Value))
      { next := context.touched
        changedJson := ∅
        changedBlobs := ∅
        eventIds := []
        knownEventIds := context.existingEventIds
        mutatedJson := ∅
        mutatedBlobs := ∅ } := by
    constructor <;> simp
  have fresh := Fallible.foldlM_induction (FreshIds context.existingEventIds)
    (fun _ _ _ _ held ok => held.step ok) step.planned.mutations start
  rw [List.nil_append] at fresh
  have new : ∀ id ∈ final.eventIds, id ∉ eventIdsOf state.events := by
    intro id member old
    obtain ⟨event, materialized, rfl⟩ := fresh.origin id member
    have announced := mutationEventId_of_materialized materialized
    apply fresh.fresh _ member
    rw [step.reads.existingEventIds, InMemoryStoreEngineState.existingEventIds,
      ExtTreeSet.mem_ofList, List.contains_iff_mem, List.mem_filter]
    exact ⟨announced, by simpa using (h.ids _).mpr old⟩
  have log : eventIdsOf next.events = eventIdsOf state.events ++ final.eventIds := by
    rw [step.simulates.events, ← step.simulates.newIds, eventIdsOf, eventIdsOf, List.map_append]
  refine ⟨?_, ?_⟩
  · rw [log, List.nodup_append]
    refine ⟨h.nodup, fresh.nodup, ?_⟩
    intro old there id member same
    exact new id member (same ▸ there)
  · intro id
    rw [step.simulates.knownIds, h.ids, log, List.mem_append]

/-! ## Replacements -/

theorem checkSnapshotEvent_refuses {capacity : StoreCapacityBudget}
    (seen : ExtTreeSet String) (event : MemoryStoreEvent) (next : ExtTreeSet String)
    (ok : checkSnapshotEvent capacity seen event = .ok next)
    : event.eventId ∉ seen ∧ ∀ id, id ∈ next ↔ id ∈ seen ∨ id = event.eventId := by
  simp only [checkSnapshotEvent, Fallible.bind_eq_ok, Fallible.pure_eq_ok, require_eq_ok,
    OrderedMap.not_contains_iff] at ok
  obtain ⟨_, _, _, new, rfl⟩ := ok
  refine ⟨new, fun id => ?_⟩
  rw [ExtTreeSet.mem_insert, Std.compare_eq_iff_eq, or_comm, eq_comm]

theorem checkProjectionEvent_refuses {rules : ProjectionRules Value}
    {capacity : StoreCapacityBudget} {scope : Option StoreScopedProjectionScope}
    (state : ExtTreeSet String × Nat) (event : MemoryStoreEvent)
    (next : ExtTreeSet String × Nat)
    (ok : checkProjectionEvent rules capacity scope state event = .ok next)
    : event.eventId ∉ state.1 ∧ ∀ id, id ∈ next.1 ↔ id ∈ state.1 ∨ id = event.eventId := by
  simp only [checkProjectionEvent, Fallible.bind_eq_ok, Fallible.pure_eq_ok, require_eq_ok,
    OrderedMap.not_contains_iff] at ok
  obtain ⟨_, _, _, new, _, _, _, _, rfl⟩ := ok
  refine ⟨new, fun id => ?_⟩
  rw [ExtTreeSet.mem_insert, Std.compare_eq_iff_eq, or_comm, eq_comm]

/-- An accepted replacement payload has distinct event ids, requested and derived ones
together.
-/
theorem validateScopedProjectionPostImage_nodup {encoding : Encoding Value}
    {rules : ProjectionRules Value} {admission : StoreTransactionAdmission}
    {request : StoreScopedProjectionReplaceRequest Value} {final usage : StoreBackendUsage}
    (ok : validateScopedProjectionPostImage encoding rules admission request final = .ok usage)
    : (eventIdsOf (request.events ++ derivedEvents request)).Nodup := by
  simp only [validateScopedProjectionPostImage, Fallible.bind_eq_ok] at ok
  obtain ⟨_, _, _, _, _, _, _, _, _, _, _, _, counted, requested, total, derived, _⟩ := ok
  obtain ⟨nodup, _, seen⟩ := Fallible.foldlM_distinct
    (fun state id => id ∈ state.1) checkProjectionEvent_refuses requested
  obtain ⟨nodup', fresh, _⟩ := Fallible.foldlM_distinct
    (fun state id => id ∈ state.1) checkProjectionEvent_refuses derived
  rw [eventIdsOf, List.map_append, List.nodup_append]
  refine ⟨nodup, nodup', ?_⟩
  intro id member other member' same
  subst same
  exact fresh id member' ((seen id).mpr (.inr member))

theorem prepareSourceClosure_events [DecidableEq Value] {rules : ProjectionRules Value}
    {request : StoreScopedProjectionReplaceRequest Value}
    {actual : List (StoreSnapshotJsonDoc Value)} {capacity : StoreCapacityBudget}
    {json : ExtTreeMap Address Value} {closure : PreparedSourceClosure Value}
    (ok : prepareSourceClosure rules request actual capacity json = .ok closure)
    : closure.events = derivedEvents request := by
  unfold prepareSourceClosure at ok
  unfold derivedEvents
  split at ok <;>
    simp only [Fallible.bind_eq_ok, Fallible.pure_eq_ok] at ok
  · obtain ⟨_, _, rfl⟩ := ok
    rfl
  · obtain ⟨_, _, _, _, _, _, _, _, rfl⟩ := ok
    rfl

/-- A scoped replacement keeps event ids unique: what it retains was unique, what it adds is
unique, and the two were compared.
-/
theorem replaceScopedProjection_uniqueEvents [DecidableEq Value]
    (engine : InMemoryStoreEngine) (encoding : Encoding Value) (rules : ProjectionRules Value)
    (request : StoreScopedProjectionReplaceRequest Value)
    (admission : StoreTransactionAdmission) (nowSecs : Nat)
    {state : InMemoryStoreEngineState Value} (h : UniqueEvents state)
    : UniqueEvents
        (engine.replaceScopedProjection encoding rules request admission nowSecs state).1 := by
  unfold InMemoryStoreEngine.replaceScopedProjection
  cases planned : engine.planScopedProjection encoding rules request admission nowSecs state with
  | error error => exact h
  | ok plan =>
      simp only [InMemoryStoreEngine.planScopedProjection, Fallible.bind_eq_ok,
        Fallible.pure_eq_ok, require_eq_ok] at planned
      obtain ⟨_, _, _, _, closure, prepared, _, _, _, _, _, _, _, compared, _, validated, rfl⟩ :=
        planned
      have payload := validateScopedProjectionPostImage_nodup validated
      rw [← prepareSourceClosure_events prepared] at payload
      refine ⟨?_, ?_⟩
      · dsimp only
        rw [List.append_assoc, eventIdsOf, List.map_append, List.nodup_append]
        refine ⟨?_, payload, ?_⟩
        · exact h.nodup.sublist (List.filter_sublist.map _)
        · intro id retained other added same
          subst same
          obtain ⟨event, member, rfl⟩ := List.mem_map.mp added
          simp only [Bool.not_eq_true', List.any_eq_false, List.contains_iff_mem] at compared
          exact compared event member retained
      · intro id
        rw [ExtTreeSet.mem_ofList, List.contains_iff_mem, eventIdsOf]

theorem replaceSnapshot_uniqueEvents (engine : InMemoryStoreEngine)
    (snapshot : SnapshotImport Value) {state : InMemoryStoreEngineState Value}
    (h : UniqueEvents state)
    : UniqueEvents (engine.replaceSnapshot snapshot state).1 := by
  unfold InMemoryStoreEngine.replaceSnapshot
  cases planned : engine.planSnapshot snapshot state with
  | error error => exact h
  | ok eventIds =>
      simp only [InMemoryStoreEngine.planSnapshot, Fallible.bind_eq_ok,
        Fallible.pure_eq_ok] at planned
      obtain ⟨_, _, ids, distinct, _, _, _, _, _, _, _, _, rfl⟩ := planned
      obtain ⟨nodup, _, seen⟩ := Fallible.foldlM_distinct
        (fun state id => id ∈ state) checkSnapshotEvent_refuses distinct
      exact ⟨nodup, fun id => by simpa [eventIdsOf] using seen id⟩

/-! ## Whole runs -/

/-- The operations that write the event log. -/
inductive StoreOperation (Value : Type) where
  | commit (request : StoreTransactionRequest Value) (admission : StoreTransactionAdmission)
      (nowSecs : Nat)
  | replaceScopedProjection (request : StoreScopedProjectionReplaceRequest Value)
      (admission : StoreTransactionAdmission) (nowSecs : Nat)
  | replaceSnapshot (snapshot : SnapshotImport Value)

/-- The state after one operation, whether it succeeded or failed. -/
def performOperation [DecidableEq Value] (engine : InMemoryStoreEngine)
    (encoding : Encoding Value) (rules : OwnerRules Value)
    (projectionRules : ProjectionRules Value) (state : InMemoryStoreEngineState Value)
    : StoreOperation Value → InMemoryStoreEngineState Value
  | .commit request admission nowSecs =>
      (engine.commitTransactionAdmitted encoding rules request admission nowSecs state).1
  | .replaceScopedProjection request admission nowSecs =>
      (engine.replaceScopedProjection encoding projectionRules request admission nowSecs
        state).1
  | .replaceSnapshot snapshot => (engine.replaceSnapshot snapshot state).1

theorem performOperation_uniqueEvents [DecidableEq Value] (engine : InMemoryStoreEngine)
    (encoding : Encoding Value) (rules : OwnerRules Value)
    (projectionRules : ProjectionRules Value) {state : InMemoryStoreEngineState Value}
    (operation : StoreOperation Value) (h : UniqueEvents state)
    : UniqueEvents (performOperation engine encoding rules projectionRules state operation) := by
  cases operation with
  | commit request admission nowSecs =>
      rcases commitTransactionAdmitted_cases engine encoding rules request admission nowSecs
        state with ⟨_, failed⟩ | ⟨_, _, _, _, step, succeeded⟩
      · simpa only [performOperation, failed] using h
      · simpa only [performOperation, succeeded] using step.uniqueEvents h
  | replaceScopedProjection request admission nowSecs =>
      exact replaceScopedProjection_uniqueEvents engine encoding projectionRules request
        admission nowSecs h
  | replaceSnapshot snapshot => exact replaceSnapshot_uniqueEvents engine snapshot h

/-- Event identity is unique over every run from an empty store: the log never holds two
events with one id, and the id set is exactly the ids of the log.
-/
theorem run_keeps_event_ids_unique [DecidableEq Value] (engine : InMemoryStoreEngine)
    (encoding : Encoding Value) (rules : OwnerRules Value)
    (projectionRules : ProjectionRules Value) (operations : List (StoreOperation Value))
    : let final := operations.foldl
        (performOperation engine encoding rules projectionRules) .empty
      (final.events.map (·.eventId)).Nodup
      ∧ ∀ id, id ∈ final.eventIds ↔ id ∈ final.events.map (·.eventId) := by
  have held : UniqueEvents
      (Runs.stateAt (performOperation engine encoding rules projectionRules) .empty operations
        operations.length) :=
    Runs.invariant uniqueEvents_empty
      (fun _ operation h =>
        performOperation_uniqueEvents engine encoding rules projectionRules operation h)
      operations.length
  rw [Runs.stateAt_length] at held
  exact ⟨held.nodup, held.ids⟩

end BeetleMemory.Store

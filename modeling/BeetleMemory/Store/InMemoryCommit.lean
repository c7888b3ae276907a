import BeetleMemory.Store.InMemory
import BeetleMemory.Store.PlannerFacts

/-! A commit of the in-memory backend is its plan, carried out on the whole state.
The mutation loop of the planner works on the touched part; the same mutations applied to
the whole state edit it exactly there.
-/

namespace BeetleMemory.Store

open Std

variable {Value : Type}

/-! ## The plan simulates the whole state -/

/-- The planner's state shows the part of the whole state that the mutations so far edited,
and its new events are those appended to the log.
-/
structure Simulates (readJson readBlobs : Address → Prop)
    (before : InMemoryStoreEngineState Value) (plan : PlanState Value)
    (after : InMemoryStoreEngineState Value) : Prop where
  json : OrderedMap.Edit readJson before.json plan.next.json after.json
  blobs : OrderedMap.Edit readBlobs before.blobs plan.next.blobs after.blobs
  events : after.events = before.events ++ plan.next.events
  newIds : plan.next.events.map (·.eventId) = plan.eventIds
  knownIds : ∀ id, id ∈ after.eventIds ↔ id ∈ before.eventIds ∨ id ∈ plan.eventIds

/-- A mutation stays within the addresses that were read. -/
def CoveredBy (readJson readBlobs : Address → Prop) (mutation : StoreEngineMutation Value)
    : Prop :=
  (∀ a ∈ mutation.jsonAddress?, readJson a) ∧ (∀ a ∈ mutation.blobAddress?, readBlobs a)

/-- One planned mutation succeeds on the whole state and keeps the simulation, by cases on
the mutation.
-/
theorem Simulates.step {readJson readBlobs : Address → Prop}
    {before after : InMemoryStoreEngineState Value} {plan next : PlanState Value}
    {capacity : StoreCapacityBudget} {mutation : StoreEngineMutation Value}
    (h : Simulates readJson readBlobs before plan after)
    (covered : CoveredBy readJson readBlobs mutation)
    (ok : planMutation capacity plan mutation = .ok next)
    : ∃ after', applyPrimitiveMutation after mutation = .ok after'
        ∧ Simulates readJson readBlobs before next after' := by
  cases mutation with
  | putJson address value =>
      simp only [planMutation, Fallible.bind_eq_ok, Fallible.pure_eq_ok] at ok
      obtain ⟨_, _, _, _, rfl⟩ := ok
      exact ⟨_, rfl, { h with json := h.json.insert (covered.1 address rfl) value }⟩
  | deleteJson address =>
      simp only [planMutation, Fallible.bind_eq_ok, Fallible.pure_eq_ok] at ok
      obtain ⟨_, _, _, _, rfl⟩ := ok
      exact ⟨_, rfl, { h with json := h.json.erase (covered.1 address rfl) }⟩
  | deleteJsonIfPresent address template => simp [planMutation] at ok
  | putBlob address value =>
      simp only [planMutation, Fallible.bind_eq_ok, Fallible.pure_eq_ok] at ok
      obtain ⟨_, _, _, _, rfl⟩ := ok
      exact ⟨_, rfl, { h with blobs := h.blobs.insert (covered.2 address rfl) value }⟩
  | deleteBlob address =>
      simp only [planMutation, Fallible.bind_eq_ok, Fallible.pure_eq_ok] at ok
      obtain ⟨_, _, _, _, rfl⟩ := ok
      exact ⟨_, rfl, { h with blobs := h.blobs.erase (covered.2 address rfl) }⟩
  | deleteBlobIfPresent address template => simp [planMutation] at ok
  | appendEvent event =>
      simp only [planMutation, Fallible.bind_eq_ok, Fallible.pure_eq_ok] at ok
      obtain ⟨_, _, _, _, rfl⟩ := ok
      refine ⟨_, rfl, { json := h.json, blobs := h.blobs, events := ?_, newIds := ?_, knownIds := ?_ }⟩
      · simp [h.events]
      · simp [h.newIds]
      · intro id
        simp only [ExtTreeSet.mem_insert, Std.compare_eq_iff_eq, h.knownIds, List.mem_append,
          List.mem_singleton]
        grind

/-- The whole loop: a plan that goes through is carried out on the whole state without a
refusal, by induction on the mutations.
-/
theorem Simulates.run {readJson readBlobs : Address → Prop}
    {before after : InMemoryStoreEngineState Value} {plan final : PlanState Value}
    {capacity : StoreCapacityBudget} {mutations : List (StoreEngineMutation Value)}
    (h : Simulates readJson readBlobs before plan after)
    (covered : ∀ m ∈ mutations, CoveredBy readJson readBlobs m)
    (ok : mutations.foldlM (planMutation capacity) plan = .ok final)
    : ∃ after', applyInMemoryTransactionPlan after mutations = (after', .ok ())
        ∧ Simulates readJson readBlobs before final after' := by
  induction mutations generalizing plan after with
  | nil =>
      simp only [List.foldlM_nil, Fallible.pure_eq_ok] at ok
      exact ⟨after, rfl, ok ▸ h⟩
  | cons mutation rest ih =>
      rw [List.foldlM_cons, Fallible.bind_eq_ok] at ok
      obtain ⟨next, first, later⟩ := ok
      obtain ⟨middle, applied, simulated⟩ := h.step (covered mutation (by simp)) first
      obtain ⟨last, rest', simulated'⟩ :=
        ih simulated (fun m hm => covered m (by simp [hm])) later
      refine ⟨last, ?_, simulated'⟩
      simp only [applyInMemoryTransactionPlan, applied, rest']

/-- Materializing conditional deletes adds no address. -/
theorem materializeMutation_covered {readJson readBlobs : Address → Prop}
    {encoding : Encoding Value} {current : BackendTransactionState Value}
    {mutation effective : StoreEngineMutation Value}
    (covered : CoveredBy readJson readBlobs mutation)
    (member : effective ∈ materializeMutation encoding current mutation)
    : CoveredBy readJson readBlobs effective := by
  cases mutation with
  | deleteJsonIfPresent address template =>
      simp only [materializeMutation] at member
      split at member
      · simp at member
      · rcases List.mem_cons.mp member with rfl | last
        · exact ⟨covered.1, by simp [StoreEngineMutation.blobAddress?]⟩
        · rw [List.mem_singleton.mp last]
          simp [CoveredBy, StoreEngineMutation.jsonAddress?, StoreEngineMutation.blobAddress?]
  | deleteBlobIfPresent address template =>
      simp only [materializeMutation] at member
      split at member
      · simp at member
      · rcases List.mem_cons.mp member with rfl | last
        · exact ⟨by simp [StoreEngineMutation.jsonAddress?], covered.2⟩
        · rw [List.mem_singleton.mp last]
          simp [CoveredBy, StoreEngineMutation.jsonAddress?, StoreEngineMutation.blobAddress?]
  | putJson _ _ | deleteJson _ | putBlob _ _ | deleteBlob _ | appendEvent _ =>
      rw [List.mem_singleton.mp member]
      exact covered

theorem materializeConditionalMutations_covered {request : StoreTransactionRequest Value}
    {encoding : Encoding Value} {current : BackendTransactionState Value}
    : ∀ m ∈ materializeConditionalMutations encoding request.mutations current,
        CoveredBy (· ∈ request.readSet.json) (· ∈ request.readSet.blobs) m := by
  intro m member
  obtain ⟨mutation, original, materialized⟩ := List.mem_flatMap.mp member
  exact materializeMutation_covered
    ⟨request.coversJsonMutations mutation original,
      request.coversBlobMutations mutation original⟩ materialized

theorem CoveredBy.mono {readJson readBlobs readJson' readBlobs' : Address → Prop}
    {mutation : StoreEngineMutation Value} (h : CoveredBy readJson readBlobs mutation)
    (json : ∀ a, readJson a → readJson' a) (blobs : ∀ a, readBlobs a → readBlobs' a)
    : CoveredBy readJson' readBlobs' mutation :=
  ⟨fun a ha => json a (h.1 a ha), fun a ha => blobs a (h.2 a ha)⟩

/-! ## What a commit reads -/

/-- The documents read by address and by prefix are documents of the store, and every
address of the read set is among them. Witness: induction on the prefix reads.
-/
theorem touchedJson_shows (state : InMemoryStoreEngineState Value)
    (readSet : StoreTransactionReadSet)
    : Shows (state.touchedJson readSet) state.json (· ∈ readSet.json) := by
  have start : Shows (OrderedMap.copyInto ∅ state.json readSet.json.toList) state.json
      (· ∈ readSet.json) := by
    refine ⟨(OrderedMap.within_empty _).copyInto _, ?_⟩
    intro a ha
    exact OrderedMap.copyInto_getElem? (OrderedMap.within_empty _)
      (.inl (ExtTreeSet.mem_toList.mpr ha))
  unfold InMemoryStoreEngineState.touchedJson
  generalize readSet.jsonPrefixes.toList = prefixReads
  generalize OrderedMap.copyInto ∅ state.json readSet.json.toList = touched at start ⊢
  induction prefixReads generalizing touched with
  | nil => exact start
  | cons prefixRead rest ih =>
      apply ih
      refine ⟨start.within.copyInto _, ?_⟩
      intro a ha
      exact OrderedMap.copyInto_getElem? start.within (.inr (start.covers a ha))

theorem touchedBlobs_shows (state : InMemoryStoreEngineState Value)
    (readSet : StoreTransactionReadSet)
    : Shows (state.touchedBlobs readSet) state.blobs (· ∈ readSet.blobs) := by
  refine ⟨(OrderedMap.within_empty _).copyInto _, ?_⟩
  intro a ha
  exact OrderedMap.copyInto_getElem? (OrderedMap.within_empty _)
    (.inl (ExtTreeSet.mem_toList.mpr ha))

/-! ## The commit as one step -/

section Commit

variable [DecidableEq Value] {engine : InMemoryStoreEngine} {encoding : Encoding Value}
  {rules : OwnerRules Value} {request : StoreTransactionRequest Value}
  {admission : StoreTransactionAdmission} {nowSecs : Nat}
  {state next : InMemoryStoreEngineState Value}

/-- The context of an accepted plan, read from the state immediately before the commit. -/
structure ReadsFrom (request : StoreTransactionRequest Value)
    (state : InMemoryStoreEngineState Value) (context : StoreTransactionContext Value)
    : Prop where
  json : Shows context.touched.json state.json (· ∈ request.readSet.json)
  blobs : Shows context.touched.blobs state.blobs (· ∈ request.readSet.blobs)
  noEvents : context.touched.events = []
  usage : context.usage = state.usage
  existingEventIds : context.existingEventIds = state.existingEventIds request.mutations

theorem planTransaction_ok {plan : StoreTransactionPlan Value}
    (ok : engine.planTransaction encoding rules request admission nowSecs state = .ok plan)
    : ∃ context final, ReadsFrom request state context
        ∧ Planned encoding admission request context final plan := by
  simp only [InMemoryStoreEngine.planTransaction, Fallible.bind_eq_ok] at ok
  obtain ⟨_, _, json, expanded, planned⟩ := ok
  have shown := expandOwnerTransactionDependencies_shows
    (fun a _ read found => (Except.ok.inj found).symm) expanded
    (touchedJson_shows state request.readSet)
  obtain ⟨final, facts⟩ := applyTransaction_ok planned
  refine ⟨_, final, ?_, facts⟩
  exact {
    json := shown
    blobs := touchedBlobs_shows state request.readSet
    noEvents := rfl
    usage := rfl
    existingEventIds := rfl
  }

/-- The domain in which a plan edits the store: the addresses whose touched value is the
stored one.
-/
def ReadAt (touched whole : ExtTreeMap Address Value) (address : Address) : Prop :=
  touched[address]? = whole[address]?

/-- An accepted plan is carried out in full on the state it was read from. -/
theorem Planned.carriedOut {context : StoreTransactionContext Value} {final : PlanState Value}
    {plan : StoreTransactionPlan Value} (reads : ReadsFrom request state context)
    (planned : Planned encoding admission request context final plan)
    : ∃ after, applyInMemoryTransactionPlan state plan.effectiveMutations = (after, .ok ())
        ∧ Simulates (ReadAt context.touched.json state.json)
            (ReadAt context.touched.blobs state.blobs) state final after := by
  have start : Simulates (ReadAt context.touched.json state.json)
      (ReadAt context.touched.blobs state.blobs) state
      { next := context.touched
        changedJson := ∅
        changedBlobs := ∅
        eventIds := []
        knownEventIds := context.existingEventIds
        mutatedJson := ∅
        mutatedBlobs := ∅ } state := {
    json := reads.json.within.part.edit
    blobs := reads.blobs.within.part.edit
    events := by simp [reads.noEvents]
    newIds := by simp [reads.noEvents]
    knownIds := by simp
  }
  rw [planned.effective]
  refine start.run ?_ planned.mutations
  intro m member
  exact (materializeConditionalMutations_covered m member).mono reads.json.covers
    reads.blobs.covers

/-- The step an accepted commit takes: what it read, what it planned and how the plan's
edits are the edits of the whole state.
-/
structure CommitStep (encoding : Encoding Value) (request : StoreTransactionRequest Value)
    (admission : StoreTransactionAdmission) (state next : InMemoryStoreEngineState Value)
    (context : StoreTransactionContext Value) (final : PlanState Value)
    (plan : StoreTransactionPlan Value) : Prop where
  reads : ReadsFrom request state context
  planned : Planned encoding admission request context final plan
  simulates : Simulates (ReadAt context.touched.json state.json)
    (ReadAt context.touched.blobs state.blobs) state final next
  applied : applyInMemoryTransactionPlan state plan.effectiveMutations = (next, .ok ())

/-- The two outcomes of a commit: an error before any write, or an accepted plan carried
out in full.
-/
theorem commitTransactionAdmitted_cases (engine : InMemoryStoreEngine)
    (encoding : Encoding Value) (rules : OwnerRules Value)
    (request : StoreTransactionRequest Value) (admission : StoreTransactionAdmission)
    (nowSecs : Nat) (state : InMemoryStoreEngineState Value)
    : (∃ error,
        engine.commitTransactionAdmitted encoding rules request admission nowSecs state
          = (state, .error error))
      ∨ (∃ context final plan next,
          CommitStep encoding request admission state next context final plan
          ∧ engine.commitTransactionAdmitted encoding rules request admission nowSecs state
              = (next, .ok plan.report)) := by
  cases outcome : engine.planTransaction encoding rules request admission nowSecs state with
  | error error =>
      exact .inl ⟨error, by simp [InMemoryStoreEngine.commitTransactionAdmitted, outcome]⟩
  | ok plan =>
      obtain ⟨context, final, reads, planned⟩ := planTransaction_ok outcome
      obtain ⟨next, applied, simulated⟩ := planned.carriedOut reads
      refine .inr ⟨context, final, plan, next, ⟨reads, planned, simulated, applied⟩, ?_⟩
      simp [InMemoryStoreEngine.commitTransactionAdmitted, outcome, applied]

/-- A failed commit leaves the whole state as it was. -/
theorem commitTransactionAdmitted_error {error : Error}
    (failed : engine.commitTransactionAdmitted encoding rules request admission nowSecs state
      = (next, .error error))
    : next = state := by
  rcases commitTransactionAdmitted_cases engine encoding rules request admission nowSecs state
    with ⟨_, unchanged⟩ | ⟨_, _, _, _, _, accepted⟩
  · rw [unchanged] at failed
    exact (Prod.mk.inj failed).1.symm
  · rw [accepted] at failed
    cases (Prod.mk.inj failed).2

/-- A successful commit is one such step, and returns its plan's report. -/
theorem commitTransactionAdmitted_ok {report : StoreTransactionReport}
    (succeeded : engine.commitTransactionAdmitted encoding rules request admission nowSecs state
      = (next, .ok report))
    : ∃ context final plan,
        CommitStep encoding request admission state next context final plan
        ∧ report = plan.report := by
  rcases commitTransactionAdmitted_cases engine encoding rules request admission nowSecs state
    with ⟨_, unchanged⟩ | ⟨context, final, plan, _, step, accepted⟩
  · rw [unchanged] at succeeded
    cases (Prod.mk.inj succeeded).2
  · rw [accepted] at succeeded
    obtain ⟨rfl, same⟩ := Prod.mk.inj succeeded
    exact ⟨context, final, plan, step, (Except.ok.inj same).symm⟩

end Commit

end BeetleMemory.Store

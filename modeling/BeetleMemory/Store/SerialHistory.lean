import BeetleMemory.Store.Concurrency

/-! Every history of the in-memory store, whatever its clients do and in whatever order, is the
serial run of the requests whose commits succeeded. The log only grows, and no state exceeds the
limits the engine was opened with.
-/

namespace BeetleMemory.Store

open Std Runs

variable {Value : Type}

/-- What requests mean on a whole state, one after the other. -/
def meaning (encoding : Encoding Value) (start : InMemoryStoreEngineState Value)
    (requests : List (StoreTransactionRequest Value))
    : InMemoryStoreEngineState Value :=
  requests.foldl (fun state request => mutateAgainstBefore encoding state request.mutations) start

theorem meaning_append (encoding : Encoding Value) (start : InMemoryStoreEngineState Value)
    (first second : List (StoreTransactionRequest Value))
    : meaning encoding start (first ++ second)
      = meaning encoding (meaning encoding start first) second :=
  List.foldl_append

theorem mutate_keeps_log (encoding : Encoding Value)
    (observed state : InMemoryStoreEngineState Value) (mutation : StoreEngineMutation Value)
    : state.events <+: (mutate encoding observed state mutation).events := by
  cases mutation <;> simp only [mutate] <;> (try split) <;> simp

/-- Requests only add to the log, by induction on them and on their mutations. -/
theorem meaning_keeps_log (encoding : Encoding Value) (start : InMemoryStoreEngineState Value)
    (requests : List (StoreTransactionRequest Value))
    : start.events <+: (meaning encoding start requests).events := by
  have mutations : ∀ (observed state : InMemoryStoreEngineState Value)
      (mutations : List (StoreEngineMutation Value)),
      state.events <+: (mutations.foldl (mutate encoding observed) state).events := by
    intro observed state mutations
    induction mutations generalizing state with
    | nil => exact List.prefix_refl _
    | cons mutation rest ih => exact (mutate_keeps_log encoding observed state mutation).trans (ih _)
  induction requests generalizing start with
  | nil => exact List.prefix_refl _
  | cons request rest ih => exact (mutations start start request.mutations).trans (ih _)

theorem WithinLimits.mono {capacity wider : StoreCapacityBudget} {usage : StoreBackendUsage}
    (within : WithinLimits capacity usage) (admits : wider.admitsRuntimeBudget capacity = true)
    : WithinLimits wider usage := by
  simp only [StoreCapacityBudget.admitsRuntimeBudget, Bool.and_eq_true, decide_eq_true_eq] at admits
  obtain ⟨⟨⟨⟨⟨⟨⟨⟨⟨-, events⟩, entries⟩, blobs⟩, -⟩, -⟩, -⟩, -⟩, -⟩, -⟩ := admits
  exact ⟨within.kvEntries.trans entries, within.blobBytes.trans blobs,
    within.eventCount.trans events⟩

section Histories

variable [DecidableEq Value] {engine : InMemoryStoreEngine} {encoding : Encoding Value}
  {rules : OwnerRules Value} {start : InMemoryStoreEngineState Value}
  {history : List (ClientAction Value)}

/-- The engine admits no commit under wider limits than its own. -/
theorem admits_of_succeeded {request : StoreTransactionRequest Value}
    {admission : StoreTransactionAdmission} {nowSecs : Nat}
    {state next : InMemoryStoreEngineState Value} {report : StoreTransactionReport}
    (succeeded : engine.commitTransactionAdmitted encoding rules request admission nowSecs state
      = (next, .ok report))
    : engine.capacity.admitsRuntimeBudget admission.operationCapacity = true := by
  unfold InMemoryStoreEngine.commitTransactionAdmitted at succeeded
  split at succeeded
  · cases succeeded
  · next planned =>
      obtain ⟨_, fence, _⟩ := Fallible.bind_eq_ok.mp planned
      obtain ⟨_, _, fence⟩ := Fallible.bind_eq_ok.mp fence
      obtain ⟨_, _, fence⟩ := Fallible.bind_eq_ok.mp fence
      split at fence
      · exact require_eq_ok.mp fence
      · obtain ⟨_, _, fence⟩ := Fallible.bind_eq_ok.mp fence
        obtain ⟨_, _, fence⟩ := Fallible.bind_eq_ok.mp fence
        exact require_eq_ok.mp fence

/-- The request that an access has carried out, if it is a commit and succeeds. -/
def carriedOut : ClientAction Value → ClientOutcome Value → List (StoreTransactionRequest Value)
  | .commit _ request _ _, .commit (.ok _) => [request]
  | _, _ => []

/-- The requests carried out along a history, in their order. -/
def committed (engine : InMemoryStoreEngine) (encoding : Encoding Value) (rules : OwnerRules Value)
    : InMemoryStoreEngineState Value → List (ClientAction Value)
      → List (StoreTransactionRequest Value)
  | _, [] => []
  | state, action :: rest =>
      let result := access engine encoding rules state action
      carriedOut action result.2 ++ committed engine encoding rules result.1 rest

/-- One access is what the request it has carried out means, within the limits of the engine. -/
theorem access_means (engine : InMemoryStoreEngine) (encoding : Encoding Value)
    (rules : OwnerRules Value) (state : InMemoryStoreEngineState Value)
    (action : ClientAction Value)
    : let result := access engine encoding rules state action
      result.1 = meaning encoding state (carriedOut action result.2)
        ∧ (result.1 = state ∨ WithinLimits engine.capacity result.1.usage) := by
  cases action with
  | readJson client address => exact ⟨rfl, .inl rfl⟩
  | readBlob client address => exact ⟨rfl, .inl rfl⟩
  | commit client request admission nowSecs =>
      rcases commitTransactionAdmitted_cases engine encoding rules request admission nowSecs state
        with ⟨error, failed⟩ | ⟨context, final, plan, next, step, accepted⟩
      · simp only [access, failed]
        exact ⟨rfl, .inl trivial⟩
      · simp only [access, accepted]
        refine ⟨step.next_eq, .inr ?_⟩
        rw [← step.usage_eq]
        exact step.planned.limits.mono (admits_of_succeeded accepted)

/-- The shared state is what the requests carried out mean, by induction on the accesses. -/
theorem foldl_access_means (start : InMemoryStoreEngineState Value)
    (history : List (ClientAction Value))
    : history.foldl (fun state action => (access engine encoding rules state action).1) start
      = meaning encoding start (committed engine encoding rules start history) := by
  induction history generalizing start with
  | nil => rfl
  | cons action rest ih =>
      rw [List.foldl_cons, ih, committed, meaning_append, ← (access_means ..).1]

/-- Every history of any clients is the serial run of the requests carried out: after any number
of accesses the state is what those requests mean one after the other, the log of every earlier
state is the beginning of the log of every later one, and if the store was within the limits of
the engine at the start it always is, whatever admissions the clients present.
-/
theorem history_is_serial (engine : InMemoryStoreEngine) (encoding : Encoding Value)
    (rules : OwnerRules Value) (start : InMemoryStoreEngineState Value)
    (history : List (ClientAction Value))
    : (∀ n, historyState engine encoding rules start history n
        = meaning encoding start (committed engine encoding rules start (history.take n)))
      ∧ (∀ m n, m ≤ n → (historyState engine encoding rules start history m).events
          <+: (historyState engine encoding rules start history n).events)
      ∧ (WithinLimits engine.capacity start.usage
        → ∀ n, WithinLimits engine.capacity
            (historyState engine encoding rules start history n).usage) := by
  refine ⟨fun n => foldl_access_means start (history.take n), fun m n order => ?_, fun within n => ?_⟩
  · refine @related _ _ _ start history (fun state next => state.events <+: next.events)
      (fun _ => List.prefix_refl _) List.IsPrefix.trans (fun state action => ?_) m n order
    rw [(access_means engine encoding rules state action).1]
    exact meaning_keeps_log encoding state _
  · refine @invariant _ _ _ start history
      (fun state => WithinLimits engine.capacity state.usage) within (fun state action kept => ?_) n
    rcases (access_means engine encoding rules state action).2 with same | limits
    · rwa [same]
    · exact limits

end Histories

/-- The race of two creations leaves what its winner alone would have left. -/
theorem creationRace_is_serial
    : let final := historyState smallEngine booleanEncoding ungovernedRules .empty creationRace 4
      final = meaning booleanEncoding .empty [createNote "t1" true]
        ∧ ([] : List MemoryStoreEvent) <+: final.events
        ∧ WithinLimits smallCapacity final.usage := by
  obtain ⟨serial, grows, limits⟩ :=
    history_is_serial smallEngine booleanEncoding ungovernedRules .empty creationRace
  refine ⟨(serial 4).trans rfl, grows 0 4 (by decide), limits ?_ 4⟩
  constructor <;> decide

end BeetleMemory.Store

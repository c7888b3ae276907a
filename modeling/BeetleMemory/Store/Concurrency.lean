import BeetleMemory.Lib.Runs
import BeetleMemory.Store.PlanSoundness

/-! Any number of clients reading from and committing to one in-memory store.
Every access runs under the engine's lock, so a concurrent history is an interleaving of
whole reads and whole commits.
-/

namespace BeetleMemory.Store

open Std Runs

variable {Value : Type}

/-- One access of one client. -/
inductive ClientAction (Value : Type) where
  | readJson (client : Nat) (address : Address)
  | readBlob (client : Nat) (address : Address)
  | commit (client : Nat) (request : StoreTransactionRequest Value)
      (admission : StoreTransactionAdmission) (nowSecs : Nat)

/-- What the client gets back. -/
inductive ClientOutcome (Value : Type) where
  | json (value : Option Value)
  | blob (value : Option Bytes)
  | commit (result : Except Error StoreTransactionReport)

section Histories

variable [DecidableEq Value] (engine : InMemoryStoreEngine) (encoding : Encoding Value)
  (rules : OwnerRules Value)

/-- One access on the shared state. -/
def access (state : InMemoryStoreEngineState Value)
    : ClientAction Value → InMemoryStoreEngineState Value × ClientOutcome Value
  | .readJson _ address => (state, .json state.json[address]?)
  | .readBlob _ address => (state, .blob state.blobs[address]?)
  | .commit _ request admission nowSecs =>
      let result :=
        engine.commitTransactionAdmitted encoding rules request admission nowSecs state
      (result.1, .commit result.2)

/-- (historyState start history n) is the shared state after the first n accesses. -/
def historyState (start : InMemoryStoreEngineState Value)
    (history : List (ClientAction Value)) (n : Nat)
    : InMemoryStoreEngineState Value :=
  stateAt (fun state action => (access engine encoding rules state action).1) start history n

/-- The n-th access of the history is a commit of the request, and it succeeds. -/
def SucceedsAt (start : InMemoryStoreEngineState Value) (history : List (ClientAction Value))
    (n : Nat) (request : StoreTransactionRequest Value) : Prop :=
  ∃ client admission nowSecs report,
    history[n]? = some (.commit client request admission nowSecs)
    ∧ (access engine encoding rules (historyState engine encoding rules start history n)
        (.commit client request admission nowSecs)).2 = .commit (.ok report)

/-- The n-th access of the history is a commit of the request, and it fails. -/
def FailsAt (start : InMemoryStoreEngineState Value) (history : List (ClientAction Value))
    (n : Nat) (request : StoreTransactionRequest Value) : Prop :=
  ∃ client admission nowSecs error,
    history[n]? = some (.commit client request admission nowSecs)
    ∧ (access engine encoding rules (historyState engine encoding rules start history n)
        (.commit client request admission nowSecs)).2 = .commit (.error error)

variable {engine encoding rules} {start : InMemoryStoreEngineState Value}
  {history : List (ClientAction Value)} {n : Nat} {request : StoreTransactionRequest Value}

/-- A successful commit is one commit step from the state at its position. -/
theorem SucceedsAt.step (h : SucceedsAt engine encoding rules start history n request)
    : ∃ admission context final plan,
        CommitStep encoding request admission
          (historyState engine encoding rules start history n)
          (historyState engine encoding rules start history (n + 1)) context final plan := by
  obtain ⟨client, admission, nowSecs, report, here, succeeded⟩ := h
  have next : historyState engine encoding rules start history (n + 1)
      = (engine.commitTransactionAdmitted encoding rules request admission nowSecs
          (historyState engine encoding rules start history n)).1 :=
    stateAt_succ here
  have result : (engine.commitTransactionAdmitted encoding rules request admission nowSecs
      (historyState engine encoding rules start history n)).2 = .ok report := by
    simpa only [access, ClientOutcome.commit.injEq] using succeeded
  obtain ⟨context, final, plan, step, _⟩ :=
    commitTransactionAdmitted_ok (Prod.ext next.symm result)
  exact ⟨admission, context, final, plan, step⟩

/-- Every condition of a successful commit held of the state immediately before it. -/
theorem SucceedsAt.conditions (h : SucceedsAt engine encoding rules start history n request)
    : (∀ p ∈ request.preconditions,
        (historyState engine encoding rules start history n).json[p.address]? = p.expected)
      ∧ ∀ p ∈ request.blobPreconditions,
          (historyState engine encoding rules start history n).blobs[p.address]?.map
            (blobDigest encoding) = p.expectedDigest := by
  obtain ⟨admission, context, final, plan, step⟩ := h.step
  constructor
  · intro p hp
    rw [← step.reads.json.covers p.address (request.coversPreconditions p hp)]
    exact step.planned.preconditions p hp
  · intro p hp
    rw [← step.reads.blobs.covers p.address (request.coversBlobPreconditions p hp)]
    exact step.planned.blobPreconditions p hp

theorem FailsAt.unchanged (h : FailsAt engine encoding rules start history n request)
    : historyState engine encoding rules start history (n + 1)
      = historyState engine encoding rules start history n := by
  obtain ⟨client, admission, nowSecs, error, here, failed⟩ := h
  have next : historyState engine encoding rules start history (n + 1)
      = (engine.commitTransactionAdmitted encoding rules request admission nowSecs
          (historyState engine encoding rules start history n)).1 :=
    stateAt_succ here
  have result : (engine.commitTransactionAdmitted encoding rules request admission nowSecs
      (historyState engine encoding rules start history n)).2 = .error error := by
    simpa only [access, ClientOutcome.commit.injEq] using failed
  exact commitTransactionAdmitted_error (Prod.ext next.symm result)

/-- Only a successful commit changes the shared state, since reads and failed commits leave
it as it is.
-/
theorem succeedsAt_of_changed
    (changed : historyState engine encoding rules start history (n + 1)
      ≠ historyState engine encoding rules start history n)
    {action : ClientAction Value} (here : history[n]? = some action)
    : ∃ request, SucceedsAt engine encoding rules start history n request := by
  cases action with
  | readJson client address => exact absurd (stateAt_succ here) changed
  | readBlob client address => exact absurd (stateAt_succ here) changed
  | commit client request admission nowSecs =>
      refine ⟨request, client, admission, nowSecs, ?_⟩
      cases outcome : (engine.commitTransactionAdmitted encoding rules request admission nowSecs
        (historyState engine encoding rules start history n)).2 with
      | ok report => exact ⟨report, here, by simp only [access, outcome]⟩
      | error error =>
          have failed : FailsAt engine encoding rules start history n request :=
            ⟨client, admission, nowSecs, error, here, by simp only [access, outcome]⟩
          exact absurd failed.unchanged changed

/-- (WrittenBack observe i j) says that some successful commit strictly between two positions
of the history made the observed property true again.
-/
def WrittenBack (engine : InMemoryStoreEngine) (encoding : Encoding Value)
    (rules : OwnerRules Value) (start : InMemoryStoreEngineState Value)
    (history : List (ClientAction Value)) (observe : InMemoryStoreEngineState Value → Prop)
    (i j : Nat) : Prop :=
  ∃ k request, i < k ∧ k < j ∧ SucceedsAt engine encoding rules start history k request
    ∧ ¬ observe (historyState engine encoding rules start history k)
    ∧ observe (historyState engine encoding rules start history (k + 1))

theorem writtenBack_of_holds_again {observe : InMemoryStoreEngineState Value → Prop}
    {i j : Nat} (before : i < j)
    (lost : ¬ observe (historyState engine encoding rules start history (i + 1)))
    (again : observe (historyState engine encoding rules start history j))
    : WrittenBack engine encoding rules start history observe i j := by
  obtain ⟨k, action, hi, hj, here, off, on⟩ := reestablished before lost again
  have changed : historyState engine encoding rules start history (k + 1)
      ≠ historyState engine encoding rules start history k := by
    intro same
    rw [historyState, historyState] at same
    exact off (same ▸ on)
  obtain ⟨request, succeeded⟩ := succeedsAt_of_changed changed here
  exact ⟨k, request, hi, hj, succeeded, off, on⟩

omit [DecidableEq Value] in
/-- Two blobs under one condition are the same blob, unless their hashes collide. -/
theorem same_blob_or_collision {digest : Option String} {left right : Option Bytes}
    (hl : left.map (blobDigest encoding) = digest)
    (hr : right.map (blobDigest encoding) = digest)
    : right = left
      ∨ ∃ v w, left = some v ∧ right = some w ∧ v ≠ w ∧ encoding.sha256 v = encoding.sha256 w := by
  rw [← hr] at hl
  cases left with
  | none =>
      cases right with
      | none => exact .inl rfl
      | some w => simp at hl
  | some v =>
      cases right with
      | none => simp at hl
      | some w =>
          by_cases same : w = v
          · exact .inl (congrArg some same)
          · refine .inr ⟨v, w, rfl, rfl, Ne.symm same, ?_⟩
            simpa [blobDigest] using hl

/-- Optimistic concurrency loses no update, in any history of any clients. A commit succeeds
only if all its conditions hold of the state immediately before it; a failed commit changes
nothing; and once a successful commit has changed a document or blob it was conditioned on,
a later commit with the same condition succeeds only if the value was written back between
them. Blobs are compared by hash, so for them two blobs with one hash are the exception.
-/
theorem history_loses_no_update (engine : InMemoryStoreEngine) (encoding : Encoding Value)
    (rules : OwnerRules Value) (start : InMemoryStoreEngineState Value)
    (history : List (ClientAction Value))
    : (∀ n request, SucceedsAt engine encoding rules start history n request
        → (∀ p ∈ request.preconditions,
            (historyState engine encoding rules start history n).json[p.address]? = p.expected)
          ∧ ∀ p ∈ request.blobPreconditions,
              (historyState engine encoding rules start history n).blobs[p.address]?.map
                (blobDigest encoding) = p.expectedDigest)
      ∧ (∀ n request, FailsAt engine encoding rules start history n request
          → historyState engine encoding rules start history (n + 1)
            = historyState engine encoding rules start history n)
      ∧ (∀ i j first second, i < j
          → SucceedsAt engine encoding rules start history i first
          → SucceedsAt engine encoding rules start history j second
          → ∀ p ∈ first.preconditions, ∀ q ∈ second.preconditions,
              q.address = p.address → q.expected = p.expected
              → (historyState engine encoding rules start history (i + 1)).json[p.address]?
                ≠ p.expected
              → WrittenBack engine encoding rules start history
                  (fun state => state.json[p.address]? = p.expected) i j)
      ∧ (∀ i j first second, i < j
          → SucceedsAt engine encoding rules start history i first
          → SucceedsAt engine encoding rules start history j second
          → ∀ p ∈ first.blobPreconditions, ∀ q ∈ second.blobPreconditions,
              q.address = p.address → q.expectedDigest = p.expectedDigest
              → (historyState engine encoding rules start history (i + 1)).blobs[p.address]?
                ≠ (historyState engine encoding rules start history i).blobs[p.address]?
              → WrittenBack engine encoding rules start history
                  (fun state => state.blobs[p.address]?
                    = (historyState engine encoding rules start history i).blobs[p.address]?)
                  i j
                ∨ ∃ v w,
                    (historyState engine encoding rules start history i).blobs[p.address]?
                      = some v
                    ∧ (historyState engine encoding rules start history j).blobs[p.address]?
                      = some w
                    ∧ v ≠ w ∧ encoding.sha256 v = encoding.sha256 w) := by
  refine ⟨fun _ _ h => h.conditions, fun _ _ h => h.unchanged, ?_, ?_⟩
  · intro i j first second before _ later p _ q hq sameAddress sameValue changed
    have again := later.conditions.1 q hq
    rw [sameAddress, sameValue] at again
    exact writtenBack_of_holds_again before changed again
  · intro i j first second before earlier later p hp q hq sameAddress sameDigest changed
    have held := earlier.conditions.2 p hp
    have again := later.conditions.2 q hq
    rw [sameAddress, sameDigest] at again
    rcases same_blob_or_collision held again with same | collision
    · exact .inl (writtenBack_of_holds_again before changed same)
    · exact .inr collision

end Histories

/-- Two clients that both create one document, each on the condition that it is absent. -/
def createNote (transactionId : String) (value : Bool) : StoreTransactionRequest Bool :=
  .new transactionId [.absent ⟨"notes", "a"⟩] [.putJson ⟨"notes", "a"⟩ value]

def creationRace : List (ClientAction Bool) :=
  [.readJson 1 ⟨"notes", "a"⟩, .readJson 2 ⟨"notes", "a"⟩,
    .commit 1 (createNote "t1" true) smallAdmission 0,
    .commit 2 (createNote "t2" false) smallAdmission 0]

theorem creationRace_has_one_winner
    : SucceedsAt smallEngine booleanEncoding ungovernedRules .empty creationRace 2
        (createNote "t1" true)
      ∧ ¬ SucceedsAt smallEngine booleanEncoding ungovernedRules .empty creationRace 3
          (createNote "t2" false) := by
  have first : SucceedsAt smallEngine booleanEncoding ungovernedRules .empty creationRace 2
      (createNote "t1" true) :=
    ⟨1, smallAdmission, 0, _, rfl, rfl⟩
  refine ⟨first, ?_⟩
  intro second
  obtain ⟨k, _, hi, hj, _⟩ :=
    (history_loses_no_update smallEngine booleanEncoding ungovernedRules .empty
      creationRace).2.2.1 2 3 _ _ (by decide) first second (.absent ⟨"notes", "a"⟩)
      List.mem_cons_self (.absent ⟨"notes", "a"⟩) List.mem_cons_self rfl rfl (by decide)
  omega

end BeetleMemory.Store

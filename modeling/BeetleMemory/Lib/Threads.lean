import BeetleMemory.Lib.Runs

/-! Threads that share a state: programs of external calls and atomic sections, pools of them
under every schedule, and a rule for a token that one thread at a time owns.
-/

namespace Threads

/-- A program calls the outside, whose answers are arbitrary, and runs sections that read and
update the shared state in one step. Calls made inside a section are answered with it.
-/
inductive Program (σ κ : Type) (ρ : κ → Type) (α : Type) : Type
  | done (result : α)
  | call (request : κ) (next : ρ request → Program σ κ ρ α)
  | atomically (update : ((request : κ) → ρ request) → σ → σ)
      (next : ((request : κ) → ρ request) → σ → Program σ κ ρ α)

/-- A call that was made, with its answer. -/
structure Event (κ : Type) (ρ : κ → Type) where
  request : κ
  answer : ρ request

variable {σ κ τ ω : Type} {ρ : κ → Type} {α β : Type}

namespace Program

protected def bind : Program σ κ ρ α → (α → Program σ κ ρ β) → Program σ κ ρ β
  | .done result, next => next result
  | .call request rest, next => .call request fun answer => (rest answer).bind next
  | .atomically update rest, next =>
      .atomically update fun answers state => (rest answers state).bind next

instance : Monad (Program σ κ ρ) where
  pure := .done
  bind := Program.bind

/-- The answer of one call. -/
def request (c : κ) : Program σ κ ρ (ρ c) :=
  .call c .done

/-- One section under the lock: it returns a value and leaves a new shared state. -/
def locked (body : ((c : κ) → ρ c) → σ → α × σ) : Program σ κ ρ α :=
  .atomically (fun answers state => (body answers state).2)
    fun answers state => .done (body answers state).1

end Program

/-! ## Pools -/

/-- A thread runs the program of an operation and remembers its calls. -/
structure Thread (σ κ : Type) (ρ : κ → Type) (ω α : Type) where
  operation : ω
  program : Program σ κ ρ α
  log : List (Event κ ρ)

structure Pool (σ κ : Type) (ρ : κ → Type) (ω α : Type) where
  shared : σ
  threads : List (Thread σ κ ρ ω α)

/-- A new thread begins an operation, or a thread takes its next step with these answers. -/
inductive Action (κ : Type) (ρ : κ → Type) (ω : Type)
  | spawn (operation : ω)
  | advance (thread : Nat) (answers : (request : κ) → ρ request)

/-- One action of the pool. A thread that is done, or not there, changes nothing. -/
def Pool.step (main : ω → Program σ κ ρ α) (pool : Pool σ κ ρ ω α)
    : Action κ ρ ω → Pool σ κ ρ ω α
  | .spawn operation =>
      { pool with threads := pool.threads ++ [⟨operation, main operation, []⟩] }
  | .advance index answers =>
      match pool.threads[index]? with
      | none => pool
      | some thread =>
          match thread.program with
          | .done _ => pool
          | .call request next =>
              { pool with
                threads := pool.threads.set index
                  { thread with
                    program := next (answers request)
                    log := thread.log ++ [⟨request, answers request⟩] } }
          | .atomically update next =>
              { shared := update answers pool.shared
                threads := pool.threads.set index
                  { thread with program := next answers pool.shared } }

/-! ## A token -/

/-- What a pool keeps to: an invariant of the shared state, which says who owns the token, and
the calls that only the owner makes.
-/
structure Discipline (σ κ τ : Type) where
  holds : σ → Prop
  owner : σ → Option τ
  guarded : κ → Prop

/-- (Passes before held after held') says how a section may change ownership: not at all, by
taking the free token, or by giving back the own one.
-/
def Passes (before held after held' : Option τ) : Prop :=
  (after = before ∧ held' = held)
    ∨ (held = none ∧ before = none ∧ after = held')
    ∨ (before = held ∧ after = none ∧ held' = none)

/-- (Safe d post held log program) says that the program, begun with this part of the token
and these calls behind it, makes guarded calls as an owner only, keeps the discipline in
every section, and ends in the postcondition.
-/
def Safe (d : Discipline σ κ τ) (post : Option τ → List (Event κ ρ) → α → Prop)
    : Option τ → List (Event κ ρ) → Program σ κ ρ α → Prop
  | held, log, .done result => post held log result
  | held, log, .call request next =>
      (d.guarded request → held ≠ none)
        ∧ ∀ answer, Safe d post held (log ++ [⟨request, answer⟩]) (next answer)
  | held, log, .atomically update next =>
      ∀ answers state, d.holds state → (held = none ∨ d.owner state = held) →
        d.holds (update answers state)
          ∧ ∃ held', Passes (d.owner state) held (d.owner (update answers state)) held'
            ∧ Safe d post held' log (next answers state)

section Rules

variable {d : Discipline σ κ τ} {held : Option τ} {log : List (Event κ ρ)}

/-- Sequencing: the second program takes over where the first one ends. -/
theorem Safe.bind {post : Option τ → List (Event κ ρ) → α → Prop}
    {after : Option τ → List (Event κ ρ) → β → Prop} {program : Program σ κ ρ α}
    {next : α → Program σ κ ρ β} (first : Safe d post held log program)
    (second : ∀ held' log' result, post held' log' result →
      Safe d after held' log' (next result))
    : Safe d after held log (program >>= next) := by
  induction program generalizing held log with
  | done result => exact second held log result first
  | call request rest ih => exact ⟨first.1, fun answer => ih answer (first.2 answer)⟩
  | atomically update rest ih =>
      intro answers state holds owned
      obtain ⟨kept, held', passes, later⟩ := first answers state holds owned
      exact ⟨kept, held', passes, ih answers state later⟩

end Rules

/-! ## Schedules -/

/-- The parts of the token that the threads hold: at most one thread has it, and it is the
owner the shared state names.
-/
structure Holding (owner : Option τ) (held : Nat → Option τ) : Prop where
  named : ∀ i, held i ≠ none → owner = held i
  single : ∀ i j, held i ≠ none → held j ≠ none → i = j
  owned : owner ≠ none → ∃ i, held i = owner

/-- Ownership that passes in a section of one thread leaves the others without the token. -/
theorem Holding.pass {before after : Option τ} {held : Nat → Option τ} {i : Nat}
    {held' : Option τ} (h : Holding before held) (passes : Passes before (held i) after held')
    : Holding after (Function.update held i held') := by
  rcases passes with ⟨same, kept⟩ | ⟨free, unowned, taken⟩ | ⟨own, released, dropped⟩
  · subst same kept
    rw [Function.update_eq_self]
    exact h
  · -- the token was free, so no thread held a part of it
    have others : ∀ j, held j = none := by
      intro j
      by_contra holds
      exact holds ((h.named j holds).symm.trans unowned)
    subst taken
    have elsewhere : ∀ j, Function.update held i after j ≠ none → j = i := by
      intro j holds
      by_contra differ
      rw [Function.update_of_ne differ] at holds
      exact holds (others j)
    refine ⟨?_, ?_, ?_⟩
    · intro j holds
      rw [elsewhere j holds, Function.update_self]
    · intro j k holds holds'
      rw [elsewhere j holds, elsewhere k holds']
    · intro _
      exact ⟨i, Function.update_self i after held⟩
  · -- the token was its own, or nobody's
    have others : ∀ j, j ≠ i → held j = none := by
      intro j differ
      by_contra holds
      have owner := h.named j holds
      by_cases mine : held i = none
      · exact holds (owner.symm.trans (own.trans mine))
      · exact differ (h.single j i holds mine)
    subst released dropped
    have nobody : ∀ j, Function.update held i none j = none := by
      intro j
      by_cases same : j = i
      · rw [same, Function.update_self]
      · rw [Function.update_of_ne same]
        exact others j same
    refine ⟨?_, ?_, ?_⟩
    · exact fun j holds => absurd (nobody j) holds
    · exact fun j _ holds => absurd (nobody j) holds
    · exact fun owned => absurd rfl owned

/-- Every thread is safe with the part of the token it holds. -/
structure Orderly (d : Discipline σ κ τ)
    (post : ω → Option τ → List (Event κ ρ) → α → Prop) (held : Nat → Option τ)
    (pool : Pool σ κ ρ ω α) : Prop where
  holds : d.holds pool.shared
  holding : Holding (d.owner pool.shared) held
  safe : ∀ i thread, pool.threads[i]? = some thread →
    Safe d (post thread.operation) (held i) thread.log thread.program
  beyond : ∀ i, pool.threads.length ≤ i → held i = none

section Schedules

variable {d : Discipline σ κ τ} {post : ω → Option τ → List (Event κ ρ) → α → Prop}
variable {main : ω → Program σ κ ρ α} {pool : Pool σ κ ρ ω α} {held : Nat → Option τ}

theorem Orderly.spawn (h : Orderly d post held pool) {operation : ω}
    (safe : Safe d (post operation) none [] (main operation))
    : Orderly d post held (pool.step main (.spawn operation)) := by
  refine ⟨h.holds, h.holding, ?_, ?_⟩
  · intro i thread found
    rcases Nat.lt_trichotomy i pool.threads.length with earlier | here | later
    · rw [Pool.step, List.getElem?_append_left earlier] at found
      exact h.safe i thread found
    · subst here
      rw [Pool.step, List.getElem?_concat_length, Option.some.injEq] at found
      subst found
      rw [h.beyond _ le_rfl]
      exact safe
    · rw [Pool.step, List.getElem?_eq_none (by simp; omega)] at found
      cases found
  · intro i beyond
    refine h.beyond i ?_
    simp only [Pool.step, List.length_append, List.length_singleton] at beyond
    omega

/-- The thread that moved is safe with its new part, the others with theirs. -/
theorem Orderly.moved (h : Orderly d post held pool) {index : Nat}
    {thread thread' : Thread σ κ ρ ω α} (here : pool.threads[index]? = some thread)
    {shared : σ} {part : Option τ} (holds : d.holds shared)
    (passes : Passes (d.owner pool.shared) (held index) (d.owner shared) part)
    (safe : Safe d (post thread'.operation) part thread'.log thread'.program)
    : Orderly d post (Function.update held index part)
        { shared := shared, threads := pool.threads.set index thread' } := by
  obtain ⟨bound, -⟩ := List.getElem?_eq_some_iff.mp here
  refine ⟨holds, h.holding.pass passes, ?_, ?_⟩
  · intro i other found
    by_cases same : i = index
    · subst same
      rw [List.getElem?_set_self bound, Option.some.injEq] at found
      subst found
      rw [Function.update_self]
      exact safe
    · rw [List.getElem?_set_ne (Ne.symm same)] at found
      rw [Function.update_of_ne same]
      exact h.safe i other found
  · intro i beyond
    rw [List.length_set] at beyond
    rw [Function.update_of_ne (by omega)]
    exact h.beyond i beyond

theorem Orderly.advance (h : Orderly d post held pool) (index : Nat)
    (answers : (request : κ) → ρ request)
    : ∃ held', Orderly d post held' (pool.step main (.advance index answers)) := by
  rw [Pool.step]
  split
  next => exact ⟨held, h⟩
  next thread here =>
    have safe := h.safe index thread here
    split
    next => exact ⟨held, h⟩
    next request next program =>
      rw [program] at safe
      refine ⟨_, h.moved here h.holds (.inl ⟨rfl, rfl⟩) ?_⟩
      exact safe.2 (answers request)
    next update next program =>
      rw [program] at safe
      have owned : held index = none ∨ d.owner pool.shared = held index := by
        by_cases free : held index = none
        · exact .inl free
        · exact .inr (h.holding.named index free)
      obtain ⟨kept, part, passes, later⟩ := safe answers pool.shared h.holds owned
      refine ⟨_, h.moved here kept passes ?_⟩
      exact later

/-- Programs that are safe on their own are safe together, under every schedule. -/
theorem orderly_run (d : Discipline σ κ τ)
    (post : ω → Option τ → List (Event κ ρ) → α → Prop) (main : ω → Program σ κ ρ α)
    (start : σ) (holds : d.holds start) (free : d.owner start = none)
    (safe : ∀ operation, Safe d (post operation) none [] (main operation))
    (actions : List (Action κ ρ ω)) (n : Nat)
    : ∃ held, Orderly d post held (Runs.stateAt (Pool.step main) ⟨start, []⟩ actions n) := by
  have initial : ∃ held, Orderly d post held (⟨start, []⟩ : Pool σ κ ρ ω α) := by
    refine ⟨fun _ => none, holds, ⟨?_, ?_, ?_⟩, ?_, fun _ _ => rfl⟩
    · exact fun _ holds => absurd rfl holds
    · exact fun _ _ holds => absurd rfl holds
    · exact fun owned => absurd free owned
    · exact fun _ _ found => by cases found
  induction n with
  | zero => exact initial
  | succ n ih =>
      obtain ⟨held, h⟩ := ih
      cases here : actions[n]? with
      | none =>
          rw [Runs.stateAt_succ_of_none here]
          exact ⟨held, h⟩
      | some action =>
          rw [Runs.stateAt_succ here]
          cases action with
          | spawn operation => exact ⟨held, h.spawn (safe operation)⟩
          | advance index answers => exact h.advance index answers

/-- The thread's next step is a guarded call: it is being made. -/
def Thread.Calls (d : Discipline σ κ τ) (thread : Thread σ κ ρ ω α) : Prop :=
  ∃ request next, thread.program = .call request next ∧ d.guarded request

/-- At most one thread is in a guarded call. -/
theorem Orderly.exclusive (h : Orderly d post held pool) {i j : Nat}
    {one two : Thread σ κ ρ ω α} (here : pool.threads[i]? = some one)
    (there : pool.threads[j]? = some two) (first : one.Calls d) (second : two.Calls d)
    : i = j := by
  obtain ⟨request, next, program, guarded⟩ := first
  obtain ⟨request', next', program', guarded'⟩ := second
  have safe := h.safe i one here
  have safe' := h.safe j two there
  rw [program] at safe
  rw [program'] at safe'
  exact h.holding.single i j (safe.1 guarded) (safe'.1 guarded')

/-- An owned token is in the hands of a thread of the pool. -/
theorem Orderly.owner_thread (h : Orderly d post held pool)
    (owned : d.owner pool.shared ≠ none)
    : ∃ i thread, pool.threads[i]? = some thread ∧ held i ≠ none := by
  obtain ⟨i, holds⟩ := h.holding.owned owned
  rw [← holds] at owned
  have bound : i < pool.threads.length := by
    by_contra beyond
    exact owned (h.beyond i (Nat.le_of_not_lt beyond))
  exact ⟨i, pool.threads[i], List.getElem?_eq_getElem bound, owned⟩

/-- A thread that is done has met its postcondition. -/
theorem Orderly.finished (h : Orderly d post held pool) {i : Nat}
    {thread : Thread σ κ ρ ω α} {result : α} (here : pool.threads[i]? = some thread)
    (done : thread.program = .done result)
    : post thread.operation (held i) thread.log result := by
  have safe := h.safe i thread here
  rw [done] at safe
  exact safe

end Schedules

end Threads

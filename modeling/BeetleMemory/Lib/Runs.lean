import Mathlib

/-! Runs of a state machine: the state before each action of a list.
Invariants pass from step to run, and a property that was lost and holds again was
re-established by one of the actions between.
-/

namespace Runs

variable {σ α : Type} {step : σ → α → σ} {start : σ} {actions : List α}

/-- (stateAt step start actions n) is the state after the first n actions. -/
def stateAt (step : σ → α → σ) (start : σ) (actions : List α) (n : Nat) : σ :=
  (actions.take n).foldl step start

@[simp]
theorem stateAt_zero : stateAt step start actions 0 = start :=
  rfl

theorem stateAt_succ {n : Nat} {action : α} (here : actions[n]? = some action)
    : stateAt step start actions (n + 1) = step (stateAt step start actions n) action := by
  rw [stateAt, List.take_add_one, List.foldl_append, here]
  rfl

/-- Past the last action nothing changes. -/
theorem stateAt_succ_of_none {n : Nat} (here : actions[n]? = none)
    : stateAt step start actions (n + 1) = stateAt step start actions n := by
  rw [stateAt, List.take_add_one, here]
  simp [stateAt]

theorem stateAt_length
    : stateAt step start actions actions.length = actions.foldl step start := by
  rw [stateAt, List.take_length]

/-- What holds at the start and is preserved by every action of the run holds along it. -/
theorem invariant_of_forall {holds : σ → Prop} (initial : holds start)
    (preserved : ∀ action ∈ actions, ∀ state, holds state → holds (step state action))
    (n : Nat)
    : holds (stateAt step start actions n) := by
  induction n with
  | zero => exact initial
  | succ n ih =>
      cases here : actions[n]? with
      | none => rw [stateAt_succ_of_none here]; exact ih
      | some action =>
          rw [stateAt_succ here]
          exact preserved action (List.mem_of_getElem? here) _ ih

/-- What holds at the start and is preserved by every action holds along the whole run. -/
theorem invariant {holds : σ → Prop} (initial : holds start)
    (preserved : ∀ state action, holds state → holds (step state action)) (n : Nat)
    : holds (stateAt step start actions n) :=
  invariant_of_forall initial (fun action _ state => preserved state action) n

/-- What relates the states around every action relates earlier states to later ones. -/
theorem related {rel : σ → σ → Prop} (refl : ∀ state, rel state state)
    (trans : ∀ {a b c}, rel a b → rel b c → rel a c)
    (stepped : ∀ state action, rel state (step state action)) {m n : Nat} (order : m ≤ n)
    : rel (stateAt step start actions m) (stateAt step start actions n) := by
  induction n, order using Nat.le_induction with
  | base => exact refl _
  | succ n _ ih =>
      cases here : actions[n]? with
      | none => rw [stateAt_succ_of_none here]; exact ih
      | some action =>
          rw [stateAt_succ here]
          exact trans ih (stepped _ action)

/-- A property that fails after step i and holds at a later j was re-established by a step
between them. Witness: the last position before j at which it fails.
-/
theorem reestablished {holds : σ → Prop} {i j : Nat} (before : i < j)
    (lost : ¬ holds (stateAt step start actions (i + 1)))
    (again : holds (stateAt step start actions j))
    : ∃ k action, i < k ∧ k < j ∧ actions[k]? = some action
        ∧ ¬ holds (stateAt step start actions k)
        ∧ holds (stateAt step start actions (k + 1)) := by
  classical
  induction j with
  | zero => exact absurd before (Nat.not_lt_zero i)
  | succ j ih =>
      by_cases held : holds (stateAt step start actions j)
      · have earlier : i < j := by
          rcases Nat.lt_succ_iff_lt_or_eq.mp before with less | same
          · exact less
          · subst same
            exact absurd again lost
        obtain ⟨k, action, hi, hj, here, facts⟩ := ih earlier held
        exact ⟨k, action, hi, Nat.lt_succ_of_lt hj, here, facts⟩
      · cases here : actions[j]? with
        | none =>
            rw [stateAt_succ_of_none here] at again
            exact absurd again held
        | some action =>
            refine ⟨j, action, ?_, Nat.lt_succ_self j, here, held, again⟩
            rcases Nat.lt_succ_iff_lt_or_eq.mp before with less | same
            · exact less
            · subst same
              exact absurd again lost

end Runs

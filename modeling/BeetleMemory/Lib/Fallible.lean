import Mathlib

/-! Computations that stop at their first error, taken apart from the outside in.
A success of a sequence is a success of each of its steps, and what every step of a loop
preserves the whole loop preserves.
-/

namespace Fallible

variable {ε α β σ : Type}

theorem isOk_iff {ε α : Type} {result : Except ε α} : result.isOk ↔ ∃ a, result = .ok a := by
  cases result <;> simp [Except.isOk, Except.toBool]

theorem ok_bind (value : α) (rest : α → Except ε β)
    : ((.ok value : Except ε α) >>= rest) = rest value :=
  rfl

theorem error_bind (error : ε) (rest : α → Except ε β)
    : ((.error error : Except ε α) >>= rest) = .error error :=
  rfl

/-- A sequence succeeds exactly when its first step does and the rest succeeds after it. -/
theorem bind_eq_ok {first : Except ε α} {rest : α → Except ε β} {result : β}
    : (first >>= rest) = .ok result
      ↔ ∃ value, first = .ok value ∧ rest value = .ok result := by
  cases first <;> simp [bind, Except.bind]

theorem map_eq_ok {first : Except ε α} {change : α → β} {result : β}
    : (change <$> first) = .ok result ↔ ∃ value, first = .ok value ∧ change value = result := by
  cases first <;> simp [Functor.map, Except.map]

theorem pure_eq_ok {value result : α}
    : (pure value : Except ε α) = .ok result ↔ value = result := by
  simp [pure, Except.pure]

/-- A loop that succeeds reaches its result through states the motive follows, where the
motive may mention the items already processed. Witness: induction on the remaining items.
-/
theorem foldlM_induction {step : σ → α → Except ε σ} (motive : List α → σ → Prop)
    (advance : ∀ done state item next, motive done state → step state item = .ok next
      → motive (done ++ [item]) next)
    {done items : List α} {state final : σ}
    (run : items.foldlM step state = .ok final) (start : motive done state)
    : motive (done ++ items) final := by
  induction items generalizing done state with
  | nil =>
      simp only [List.foldlM_nil, pure_eq_ok] at run
      subst run
      simpa using start
  | cons item rest ih =>
      rw [List.foldlM_cons, bind_eq_ok] at run
      obtain ⟨next, first, later⟩ := run
      have reached := ih later (advance done state item next start first)
      simpa using reached

/-- What every successful step preserves, a successful loop preserves. -/
theorem foldlM_invariant {step : σ → α → Except ε σ} (invariant : σ → Prop)
    (preserves : ∀ state item next, invariant state → step state item = .ok next
      → invariant next)
    {items : List α} {state final : σ}
    (run : items.foldlM step state = .ok final) (start : invariant state)
    : invariant final := by
  induction items generalizing state with
  | nil =>
      simp only [List.foldlM_nil, pure_eq_ok] at run
      exact run ▸ start
  | cons item rest ih =>
      rw [List.foldlM_cons, bind_eq_ok] at run
      obtain ⟨next, first, later⟩ := run
      exact ih later (preserves state item next start first)

/-- What every successful step establishes of its item, a successful loop establishes of all
items.
-/
theorem foldlM_forall {step : σ → α → Except ε σ} {fact : α → Prop}
    (establishes : ∀ state item next, step state item = .ok next → fact item)
    {items : List α} {state final : σ} (run : items.foldlM step state = .ok final)
    : ∀ item ∈ items, fact item := by
  induction items generalizing state with
  | nil => exact List.forall_mem_nil _
  | cons item rest ih =>
      rw [List.foldlM_cons, bind_eq_ok] at run
      obtain ⟨next, first, later⟩ := run
      exact List.forall_mem_cons.mpr ⟨establishes state item next first, ih later⟩

/-- A loop whose steps refuse a key that was seen before, and remember it otherwise, only
goes through if the keys are distinct and new. Witness: induction on the items.
-/
theorem foldlM_distinct {κ : Type} {step : σ → α → Except ε σ} {key : α → κ}
    (seen : σ → κ → Prop)
    (refuses : ∀ state item next, step state item = .ok next
      → ¬ seen state (key item) ∧ ∀ k, seen next k ↔ seen state k ∨ k = key item)
    {items : List α} {state final : σ} (run : items.foldlM step state = .ok final)
    : (items.map key).Nodup
      ∧ (∀ k ∈ items.map key, ¬ seen state k)
      ∧ ∀ k, seen final k ↔ seen state k ∨ k ∈ items.map key := by
  induction items generalizing state with
  | nil =>
      simp only [List.foldlM_nil, pure_eq_ok] at run
      subst run
      simp
  | cons item rest ih =>
      rw [List.foldlM_cons, bind_eq_ok] at run
      obtain ⟨next, first, later⟩ := run
      obtain ⟨new, remembered⟩ := refuses state item next first
      obtain ⟨nodup, fresh, total⟩ := ih later
      simp only [remembered] at fresh total
      refine ⟨?_, ?_, ?_⟩
      · refine List.nodup_cons.mpr ⟨?_, nodup⟩
        intro again
        exact fresh (key item) again (.inr rfl)
      · intro k member
        rcases List.mem_cons.mp member with rfl | later
        · exact new
        · exact fun old => fresh k later (.inl old)
      · intro k
        rw [total, List.map_cons, List.mem_cons, or_assoc]

/-- A loop of checks succeeds exactly when every check does. -/
theorem forM_eq_ok {check : α → Except ε Unit} {items : List α}
    : forM items check = .ok () ↔ ∀ item ∈ items, check item = .ok () := by
  induction items with
  | nil => simp [pure, Except.pure]
  | cons item rest ih =>
      rw [List.forM_cons, bind_eq_ok]
      constructor
      · rintro ⟨⟨⟩, first, later⟩
        simpa [first] using ih.mp later
      · intro all
        exact ⟨(), all item (by simp), ih.mpr (fun next member => all next (by simp [member]))⟩

/-- A list of computations succeeds exactly when each does, and gives their results. -/
theorem mapM_eq_ok {compute : α → Except ε β} {items : List α} {results : List β}
    : items.mapM compute = .ok results
      ↔ List.Forall₂ (fun item result => compute item = .ok result) items results := by
  induction items generalizing results with
  | nil => simp [pure, Except.pure, eq_comm]
  | cons item rest ih =>
      rw [List.mapM_cons, bind_eq_ok]
      simp only [bind_eq_ok, pure_eq_ok, ih, List.forall₂_cons_left_iff]
      constructor
      · intro ok
        obtain ⟨first, here, others, later, rfl⟩ := ok
        exact ⟨first, others, here, later, rfl⟩
      · intro facts
        obtain ⟨first, others, here, later, rfl⟩ := facts
        exact ⟨first, here, others, later, rfl⟩

/-- Steps that succeed with known results. -/
theorem mapM_eq_map {compute : α → Except ε β} {value : α → β} {items : List α}
    (each : ∀ item ∈ items, compute item = .ok (value item))
    : items.mapM compute = .ok (items.map value) := by
  induction items with
  | nil => rfl
  | cons item rest ih =>
      obtain ⟨first, others⟩ := List.forall_mem_cons.mp each
      rw [List.mapM_cons, first, ih others]
      rfl

theorem mapM_congr {compute other : α → Except ε β} {items : List α}
    (same : ∀ item ∈ items, compute item = other item)
    : items.mapM compute = items.mapM other := by
  induction items with
  | nil => rfl
  | cons item rest ih =>
      obtain ⟨first, others⟩ := List.forall_mem_cons.mp same
      rw [List.mapM_cons, List.mapM_cons, first, ih others]

end Fallible

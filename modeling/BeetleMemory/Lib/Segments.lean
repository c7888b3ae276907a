import Mathlib

/-! A list cut behind each of its end marks; the last segment may have none. -/

namespace BeetleMemory.Segments

variable {α β : Type} {isEnd : α → Bool}

def splitInclusive (isEnd : α → Bool) : List α → List (List α)
  | [] => []
  | a :: rest =>
      if isEnd a then [a] :: splitInclusive isEnd rest
      else
        match splitInclusive isEnd rest with
        | [] => [[a]]
        | segment :: others => (a :: segment) :: others

/-- No item of the list is an end mark. -/
def Open (isEnd : α → Bool) (items : List α) : Prop :=
  ∀ a ∈ items, isEnd a = false

theorem flatten_splitInclusive (items : List α)
    : (splitInclusive isEnd items).flatten = items := by
  induction items with
  | nil => rfl
  | cons a rest ih =>
      rw [splitInclusive]
      split_ifs
      · simp [ih]
      · cases parts : splitInclusive isEnd rest with
        | nil =>
            rw [parts] at ih
            simp [← ih]
        | cons segment others =>
            rw [parts] at ih
            simp [← ih]

/-- A first segment with its end mark. -/
theorem splitInclusive_closed {body : List α} {last : α} (opened : Open isEnd body)
    (ends : isEnd last = true) (rest : List α)
    : splitInclusive isEnd (body ++ last :: rest)
      = (body ++ [last]) :: splitInclusive isEnd rest := by
  induction body with
  | nil => simp [splitInclusive, ends]
  | cons a body ih =>
      obtain ⟨here, later⟩ := List.forall_mem_cons.mp opened
      rw [List.cons_append, splitInclusive, ih later, here]
      rfl

/-- A list without end marks is one segment. -/
theorem splitInclusive_open {body : List α} (opened : Open isEnd body) (nonempty : body ≠ [])
    : splitInclusive isEnd body = [body] := by
  induction body with
  | nil => exact absurd rfl nonempty
  | cons a body ih =>
      obtain ⟨here, later⟩ := List.forall_mem_cons.mp opened
      rw [splitInclusive, here]
      cases body with
      | nil => rfl
      | cons b body => rw [ih later (by simp)]; rfl

/-- Where the first end mark of a list is, if it has one. -/
theorem open_or_closed (isEnd : α → Bool) (items : List α)
    : Open isEnd items
      ∨ ∃ body last rest, items = body ++ last :: rest ∧ Open isEnd body ∧ isEnd last = true := by
  induction items with
  | nil => exact Or.inl (by simp [Open])
  | cons a rest ih =>
      by_cases here : isEnd a = true
      · exact Or.inr ⟨[], a, rest, rfl, by simp [Open], here⟩
      · rw [Bool.not_eq_true] at here
        rcases ih with opened | ⟨body, last, behind, rfl, opened, ends⟩
        · exact Or.inl (List.forall_mem_cons.mpr ⟨here, opened⟩)
        · exact Or.inr ⟨a :: body, last, behind, rfl,
            List.forall_mem_cons.mpr ⟨here, opened⟩, ends⟩

/-- The segments behind the first one are those of the rest. -/
theorem splitInclusive_cons {items segment : List α} {others : List (List α)}
    (split : splitInclusive isEnd items = segment :: others)
    : splitInclusive isEnd others.flatten = others
      ∧ items = segment ++ others.flatten ∧ segment ≠ []
      ∧ ((∃ body last, segment = body ++ [last] ∧ Open isEnd body ∧ isEnd last = true)
        ∨ (Open isEnd segment ∧ others = [])) := by
  have whole : items = segment ++ others.flatten := by
    have joined : (splitInclusive isEnd items).flatten = items := flatten_splitInclusive items
    rw [split] at joined
    exact joined.symm
  rcases open_or_closed isEnd items with opened | ⟨body, last, rest, rfl, opened, ends⟩
  · have nonempty : items ≠ [] := by
      rintro rfl
      simp [splitInclusive] at split
    rw [splitInclusive_open opened nonempty] at split
    obtain ⟨rfl, rfl⟩ := List.cons.inj split
    exact ⟨rfl, whole, nonempty, Or.inr ⟨opened, rfl⟩⟩
  · rw [splitInclusive_closed opened ends] at split
    obtain ⟨rfl, rfl⟩ := List.cons.inj split
    refine ⟨?_, whole, by simp, Or.inl ⟨body, last, rfl, opened, ends⟩⟩
    rw [flatten_splitInclusive]

/-- Some of the last segments are the segments of what they hold. -/
theorem splitInclusive_suffix {items : List α} {before segments : List (List α)}
    (split : splitInclusive isEnd items = before ++ segments)
    : splitInclusive isEnd segments.flatten = segments := by
  induction before generalizing items with
  | nil =>
      rw [List.nil_append] at split
      rw [← split, flatten_splitInclusive]
  | cons first before ih => exact ih (splitInclusive_cons split).1

/-- Some of the first segments are the segments of what they hold. -/
theorem splitInclusive_prefix {items : List α} {segments behind : List (List α)}
    (split : splitInclusive isEnd items = segments ++ behind)
    : splitInclusive isEnd segments.flatten = segments := by
  induction segments generalizing items with
  | nil => rfl
  | cons first segments ih =>
      obtain ⟨later, -, nonempty, shape⟩ := splitInclusive_cons split
      rcases shape with ⟨body, last, rfl, opened, ends⟩ | ⟨opened, none⟩
      · rw [List.flatten_cons, List.append_assoc, List.singleton_append,
          splitInclusive_closed opened ends, ih later]
      · obtain ⟨rfl, rfl⟩ := List.append_eq_nil_iff.mp none
        simpa using splitInclusive_open opened nonempty

theorem length_splitInclusive_le (isEnd : α → Bool) (items : List α)
    : (splitInclusive isEnd items).length ≤ items.length := by
  induction items with
  | nil => rfl
  | cons a rest ih =>
      rw [splitInclusive]
      split_ifs
      · simpa using ih
      · cases parts : splitInclusive isEnd rest with
        | nil => simp
        | cons segment others =>
            rw [parts] at ih
            simp only [List.length_cons] at ih ⊢
            omega

/-- Items put in front of the first segment. -/
def prepend (body : List α) : List (List α) → List (List α)
  | [] => [body]
  | segment :: others => (body ++ segment) :: others

theorem splitInclusive_append {body : List α} (opened : Open isEnd body) (nonempty : body ≠ [])
    (rest : List α)
    : splitInclusive isEnd (body ++ rest) = prepend body (splitInclusive isEnd rest) := by
  rcases open_or_closed isEnd rest with more | ⟨first, last, behind, rfl, more, ends⟩
  · have all : Open isEnd (body ++ rest) := fun a member =>
      (List.mem_append.mp member).elim (opened a) (more a)
    rw [splitInclusive_open all (by simp [nonempty])]
    cases rest with
    | nil => simp [splitInclusive, prepend]
    | cons a rest => rw [splitInclusive_open more (by simp)]; rfl
  · have all : Open isEnd (body ++ first) := fun a member =>
      (List.mem_append.mp member).elim (opened a) (more a)
    rw [← List.append_assoc, splitInclusive_closed all ends, splitInclusive_closed more ends]
    simp [prepend]

/-- The first segment has the items before the first end mark and the item behind them. -/
theorem first_segment {body : List α} (opened : Open isEnd body) (a : α) (rest : List α)
    : ∃ more others, splitInclusive isEnd (body ++ a :: rest) = (body ++ a :: more) :: others := by
  by_cases here : isEnd a = true
  · exact ⟨[], _, splitInclusive_closed opened here rest⟩
  · rw [Bool.not_eq_true] at here
    have all : Open isEnd (body ++ [a]) := fun b member =>
      (List.mem_append.mp member).elim (opened b) fun last =>
        (List.mem_singleton.mp last).symm ▸ here
    rw [List.append_cons, splitInclusive_append all (by simp)]
    cases splitInclusive isEnd rest with
    | nil => exact ⟨[], [], rfl⟩
    | cons segment others => exact ⟨segment, others, by simp [prepend]⟩

/-- Items written as lists of which only those of end marks have one, at their end. -/
theorem splitInclusive_flatMap {isEnd' : β → Bool} (write : α → List β)
    (marks : ∀ a, isEnd a = true → ∃ b, write a = [b] ∧ isEnd' b = true)
    (others : ∀ a, isEnd a = false → Open isEnd' (write a) ∧ write a ≠ []) (items : List α)
    : splitInclusive isEnd' (items.flatMap write)
      = (splitInclusive isEnd items).map (List.flatMap write) := by
  induction items with
  | nil => rfl
  | cons a rest ih =>
      rw [List.flatMap_cons, splitInclusive]
      by_cases here : isEnd a = true
      · obtain ⟨b, written, mark⟩ := marks a here
        rw [written, List.singleton_append, splitInclusive, if_pos mark, ih, if_pos here]
        simp [written]
      · rw [if_neg here]
        rw [Bool.not_eq_true] at here
        obtain ⟨opened, nonempty⟩ := others a here
        rw [splitInclusive_append opened nonempty, ih]
        cases splitInclusive isEnd rest with
        | nil => simp [prepend]
        | cons segment others => simp [prepend]

end BeetleMemory.Segments

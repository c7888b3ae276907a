import BeetleMemory.Lib.Keyed

/-! A list cut into runs of equal keys, and lists taken in rounds: one item of every list that has
items left, again and again.
-/

namespace BeetleMemory.Rounds

variable {α β κ : Type}

/-! ## Runs of equal keys -/

section Runs

variable [DecidableEq κ]

/-- The longest runs of neighbours with one key, at most as many as the fuel. -/
def equalRuns (key : α → κ) : Nat → List α → List (List α)
  | 0, _ => []
  | _ + 1, [] => []
  | fuel + 1, a :: rest =>
      (a :: rest.takeWhile fun b => key b = key a)
        :: equalRuns key fuel (rest.dropWhile fun b => key b = key a)

theorem equalRuns_induction (key : α → κ) {motive : List α → List (List α) → Prop}
    (nil : motive [] [])
    (cons : ∀ a rest runs, motive (rest.dropWhile fun b => key b = key a) runs
      → motive (a :: rest) ((a :: rest.takeWhile fun b => key b = key a) :: runs))
    {fuel : Nat} {items : List α} (enough : items.length ≤ fuel)
    : motive items (equalRuns key fuel items) := by
  induction fuel generalizing items with
  | zero =>
      rw [List.length_eq_zero_iff.mp (Nat.le_zero.mp enough)]
      exact nil
  | succ fuel ih =>
      cases items with
      | nil => exact nil
      | cons a rest =>
          apply cons
          apply ih
          have shorter : (rest.dropWhile fun b => key b = key a).length ≤ rest.length :=
            (List.dropWhile_sublist _).length_le
          rw [List.length_cons] at enough
          omega

theorem flatten_equalRuns {key : α → κ} {fuel : Nat} {items : List α}
    (enough : items.length ≤ fuel)
    : (equalRuns key fuel items).flatten = items := by
  refine equalRuns_induction key (motive := fun items runs => runs.flatten = items) rfl ?_ enough
  intro a rest runs later
  rw [List.flatten_cons, later, List.cons_append, List.takeWhile_append_dropWhile]

/-- All items of a run have one key. -/
theorem equalRuns_key {key : α → κ} {fuel : Nat} {items : List α}
    (enough : items.length ≤ fuel)
    : ∀ run ∈ equalRuns key fuel items, ∀ a ∈ run, ∀ b ∈ run, key a = key b := by
  refine equalRuns_induction key
    (motive := fun _ runs => ∀ run ∈ runs, ∀ a ∈ run, ∀ b ∈ run, key a = key b) ?_ ?_ enough
  · simp
  · intro first rest runs later run member
    rcases List.mem_cons.mp member with rfl | old
    · have same : ∀ c ∈ first :: rest.takeWhile fun b => key b = key first, key c = key first := by
        intro c inside
        rcases List.mem_cons.mp inside with rfl | taken
        · rfl
        · simpa using List.mem_takeWhile_imp taken
      exact fun a ha b hb => (same a ha).trans (same b hb).symm
    · exact later run old

/-- After the run of the first key, the keys are smaller. -/
theorem dropWhile_below {ι : Type} [LinearOrder ι] {key : α → ι} {first : α} {rest : List α}
    (falling : (first :: rest).Pairwise fun a b => key b ≤ key a)
    : ∀ b ∈ rest.dropWhile (fun b => key b = key first), key b < key first := by
  obtain ⟨below, others⟩ := List.pairwise_cons.mp falling
  cases left : rest.dropWhile fun b => key b = key first with
  | nil => simp
  | cons next more =>
      have kept : (next :: more).Pairwise fun a b => key b ≤ key a := by
        rw [← left]
        exact others.sublist (List.dropWhile_sublist _)
      have member : next ∈ rest :=
        (List.dropWhile_sublist _).subset (left ▸ List.mem_cons_self)
      have stops : key next ≠ key first := by
        have head := List.head?_dropWhile_not (fun b => decide (key b = key first)) rest
        simpa [left] using head
      have smaller : key next < key first := lt_of_le_of_ne (below next member) stops
      intro b inside
      rcases List.mem_cons.mp inside with rfl | later
      · exact smaller
      · exact lt_of_le_of_lt ((List.pairwise_cons.mp kept).1 b later) smaller

/-- In a list with falling keys, the keys fall from run to run. -/
theorem equalRuns_falling {ι : Type} [LinearOrder ι] {key : α → ι} {fuel : Nat} {items : List α}
    (enough : items.length ≤ fuel) (falling : items.Pairwise fun a b => key b ≤ key a)
    : (equalRuns key fuel items).Pairwise fun left right =>
        ∀ a ∈ left, ∀ b ∈ right, key b < key a := by
  suffices both : (equalRuns key fuel items).flatten = items
      ∧ (items.Pairwise (fun a b => key b ≤ key a) → (equalRuns key fuel items).Pairwise
        fun left right => ∀ a ∈ left, ∀ b ∈ right, key b < key a) from both.2 falling
  refine equalRuns_induction key (motive := fun items runs => runs.flatten = items
    ∧ (items.Pairwise (fun a b => key b ≤ key a) → runs.Pairwise
      fun left right => ∀ a ∈ left, ∀ b ∈ right, key b < key a)) ⟨rfl, fun _ => .nil⟩ ?_ enough
  rintro first rest runs ⟨whole, later⟩
  refine ⟨by rw [List.flatten_cons, whole, List.cons_append, List.takeWhile_append_dropWhile],
    fun falling => List.pairwise_cons.mpr ⟨?_, ?_⟩⟩
  · intro right member a inside b insideB
    have kept : b ∈ rest.dropWhile fun b => key b = key first := by
      rw [← whole]
      exact List.mem_flatten.mpr ⟨right, member, insideB⟩
    have same : key a = key first := by
      rcases List.mem_cons.mp inside with rfl | taken
      · rfl
      · simpa using List.mem_takeWhile_imp taken
    rw [same]
    exact dropWhile_below falling b kept
  · exact later ((List.pairwise_cons.mp falling).2.sublist (List.dropWhile_sublist _))

theorem equalRuns_map (f : α → β) (key : β → κ) (fuel : Nat) (items : List α)
    : equalRuns key fuel (items.map f)
      = (equalRuns (fun a => key (f a)) fuel items).map (List.map f) := by
  induction fuel generalizing items with
  | zero => rfl
  | succ fuel ih =>
      cases items with
      | nil => rfl
      | cons a rest =>
          simp only [equalRuns, List.map_cons, List.takeWhile_map, List.dropWhile_map, ih]
          rfl

end Runs

/-! ## Rounds -/

/-- The rounds from a round on, at most as many as the fuel: a round takes the item at its place
from every list that has one there, and the first round without items ends it.
-/
def roundsFrom (lists : List (List α)) : Nat → Nat → List (List α)
  | 0, _ => []
  | fuel + 1, round =>
      match lists.filterMap (·[round]?) with
      | [] => []
      | a :: added => (a :: added) :: roundsFrom lists fuel (round + 1)

/-- A round has one item of every key that is left. -/
def Rotates (key : α → κ) : List (List α) → Prop
  | [] => True
  | round :: rest =>
      (round.map key).Nodup ∧ (∀ a ∈ rest.flatten, key a ∈ round.map key) ∧ Rotates key rest

theorem filterMap_getElem?_map (f : α → β) (lists : List (List α)) (round : Nat)
    : (lists.map (List.map f)).filterMap (·[round]?)
      = (lists.filterMap (·[round]?)).map f := by
  simp [List.filterMap_map, List.map_filterMap]

theorem roundsFrom_map (f : α → β) (lists : List (List α)) (fuel round : Nat)
    : roundsFrom (lists.map (List.map f)) fuel round
      = (roundsFrom lists fuel round).map (List.map f) := by
  induction fuel generalizing round with
  | zero => rfl
  | succ fuel ih =>
      rw [roundsFrom, roundsFrom, filterMap_getElem?_map]
      cases lists.filterMap (·[round]?) with
      | nil => rfl
      | cons a added => simp [ih]

theorem filterMap_getElem?_eq_nil {lists : List (List α)} {round : Nat}
    (empty : lists.filterMap (·[round]?) = [])
    : ∀ list ∈ lists, list.length ≤ round := by
  intro list member
  simpa using List.filterMap_eq_nil_iff.mp empty list member

/-- One round takes the first item that is left of every list. -/
theorem round_perm (lists : List (List α)) (round : Nat)
    : (lists.flatMap (·.drop round)).Perm
        (lists.filterMap (·[round]?) ++ lists.flatMap (·.drop (round + 1))) := by
  induction lists with
  | nil => exact .refl []
  | cons list rest ih =>
      rw [List.flatMap_cons, List.flatMap_cons, List.filterMap_cons]
      cases found : list[round]? with
      | none =>
          have short : list.length ≤ round := List.getElem?_eq_none_iff.mp found
          rw [List.drop_eq_nil_of_le short, List.drop_eq_nil_of_le (by omega)]
          exact ih
      | some a =>
          have here : list.drop round = a :: list.drop (round + 1) := by
            obtain ⟨inside, rfl⟩ := List.getElem?_eq_some_iff.mp found
            exact List.drop_eq_getElem_cons inside
          rw [here, List.cons_append, List.cons_append]
          refine List.Perm.cons a ((ih.append_left _).trans ?_)
          rw [← List.append_assoc, ← List.append_assoc]
          exact List.perm_append_comm.append_right _

/-- Taking what is left in rounds gives all of it, in some order. -/
theorem roundsFrom_perm (lists : List (List α)) (fuel round : Nat)
    (enough : ∀ list ∈ lists, list.length ≤ round + fuel)
    : (roundsFrom lists fuel round).flatten.Perm (lists.flatMap (·.drop round)) := by
  induction fuel generalizing round with
  | zero =>
      have empty : lists.flatMap (·.drop round) = [] := by
        rw [List.flatMap_eq_nil_iff]
        exact fun list member => List.drop_eq_nil_of_le (enough list member)
      rw [empty]
      exact .refl []
  | succ fuel ih =>
      refine List.Perm.trans ?_ (round_perm lists round).symm
      rw [roundsFrom]
      cases taken : lists.filterMap (·[round]?) with
      | nil =>
          have empty : lists.flatMap (·.drop (round + 1)) = [] := by
            rw [List.flatMap_eq_nil_iff]
            intro list member
            have short := filterMap_getElem?_eq_nil taken list member
            exact List.drop_eq_nil_of_le (by omega)
          rw [empty]
          exact .refl []
      | cons a added =>
          refine List.Perm.append_left _ (ih (round + 1) ?_)
          intro list member
          have bound := enough list member
          omega

theorem mem_roundsFrom {lists : List (List α)} {fuel round : Nat} {a : α}
    (member : a ∈ (roundsFrom lists fuel round).flatten)
    : ∃ list ∈ lists, ∃ i, round ≤ i ∧ list[i]? = some a := by
  induction fuel generalizing round with
  | zero => simp [roundsFrom] at member
  | succ fuel ih =>
      rw [roundsFrom] at member
      cases taken : lists.filterMap (·[round]?) with
      | nil => simp [taken] at member
      | cons b added =>
          simp only [taken, List.flatten_cons, List.mem_append] at member
          rcases member with now | later
          · rw [← taken] at now
            obtain ⟨list, inside, found⟩ := List.mem_filterMap.mp now
            exact ⟨list, inside, round, le_rfl, found⟩
          · obtain ⟨list, inside, i, above, found⟩ := ih later
            exact ⟨list, inside, i, by omega, found⟩

/-- Lists with a key of their own are taken in rotation. -/
theorem roundsFrom_rotates {key : α → κ} {lists : List (List α)}
    (own : ∀ list ∈ lists, ∀ a ∈ list, ∀ b ∈ list, key a = key b)
    (apart : lists.Pairwise fun left right => ∀ a ∈ left, ∀ b ∈ right, key a ≠ key b)
    (fuel round : Nat)
    : Rotates key (roundsFrom lists fuel round) := by
  induction fuel generalizing round with
  | zero => trivial
  | succ fuel ih =>
      rw [roundsFrom]
      cases taken : lists.filterMap (·[round]?) with
      | nil => trivial
      | cons b added =>
          refine ⟨?_, ?_, ih (round + 1)⟩
          · rw [← taken, List.Nodup, List.pairwise_map, List.pairwise_filterMap]
            refine apart.imp fun differ a found c foundC => ?_
            exact differ a (List.mem_of_getElem? found) c (List.mem_of_getElem? foundC)
          · intro a member
            obtain ⟨list, inside, i, above, found⟩ := mem_roundsFrom member
            have bound : i < list.length := (List.getElem?_eq_some_iff.mp found).1
            have low : round < list.length := by omega
            have here : list[round]? = some list[round] := List.getElem?_eq_getElem low
            rw [own list inside a (List.mem_of_getElem? found) _ (List.mem_of_getElem? here),
              ← taken]
            exact List.mem_map.mpr ⟨_, List.mem_filterMap.mpr ⟨list, inside, here⟩, rfl⟩

end BeetleMemory.Rounds

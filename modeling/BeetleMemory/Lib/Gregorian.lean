import Mathlib

/-! The Gregorian calendar, with days numbered from the first of January 1970: which dates exist, and
that the number of a day grows with its date.
-/

namespace BeetleMemory.Gregorian

/-! ## Positions in blocks -/

section Blocks

variable {ι : Type} [LinearOrder ι] {start size : ι → ℤ}

/-- Where no block reaches into a later one, positions are ordered first by the block and then by
the place in it.
-/
theorem position_lt_iff (apart : ∀ a b, a < b → start a + size a ≤ start b) {a b : ι} {r s : ℤ}
    (inA : 0 ≤ r ∧ r < size a) (inB : 0 ≤ s ∧ s < size b)
    : start a + r < start b + s ↔ a < b ∨ a = b ∧ r < s := by
  rcases lt_trichotomy a b with below | rfl | above
  · have gap := apart a b below
    simp only [below, true_or, iff_true]
    omega
  · simp
  · have gap := apart b a above
    simp only [not_lt_of_gt above, (ne_of_lt above).symm, false_and, or_self, iff_false]
    omega

end Blocks

/-! ## Years and months -/

def IsLeap (year : ℤ) : Prop :=
  4 ∣ year ∧ (¬ 100 ∣ year ∨ 400 ∣ year)

instance (year : ℤ) : Decidable (IsLeap year) :=
  inferInstanceAs (Decidable (_ ∧ _))

def yearLength (year : ℤ) : ℤ :=
  if IsLeap year then 366 else 365

def monthLength (year : ℤ) : ℕ → ℤ
  | 2 => if IsLeap year then 29 else 28
  | 4 | 6 | 9 | 11 => 30
  | _ => 31

/-- The number of the first day of a year. -/
def yearStart (year : ℤ) : ℤ :=
  365 * (year - 1) + (year - 1) / 4 - (year - 1) / 100 + (year - 1) / 400 - 719162

/-- How many days of the year are before a month. -/
def monthStart (year : ℤ) (month : ℕ) : ℤ :=
  ∑ k ∈ Finset.range (month - 1), monthLength year (k + 1)

def dayNumber (year : ℤ) (month day : ℕ) : ℤ :=
  yearStart year + (monthStart year month + (day - 1))

structure DateExists (year : ℤ) (month day : ℕ) : Prop where
  month_pos : 1 ≤ month
  month_le : month ≤ 12
  day_pos : 1 ≤ day
  day_le : (day : ℤ) ≤ monthLength year month

theorem dateExists_iff {year : ℤ} {month day : ℕ}
    : DateExists year month day
      ↔ 1 ≤ month ∧ month ≤ 12 ∧ 1 ≤ day ∧ (day : ℤ) ≤ monthLength year month :=
  ⟨fun ⟨monthPos, monthLe, dayPos, dayLe⟩ => ⟨monthPos, monthLe, dayPos, dayLe⟩,
    fun ⟨monthPos, monthLe, dayPos, dayLe⟩ => ⟨monthPos, monthLe, dayPos, dayLe⟩⟩

instance (year : ℤ) (month day : ℕ) : Decidable (DateExists year month day) :=
  decidable_of_iff _ dateExists_iff.symm

theorem yearStart_succ (year : ℤ) : yearStart (year + 1) = yearStart year + yearLength year := by
  unfold yearStart yearLength IsLeap
  split_ifs with leap
  · omega
  · omega

theorem yearLength_pos (year : ℤ) : 0 < yearLength year := by
  unfold yearLength
  split_ifs <;> omega

theorem monthLength_pos (year : ℤ) (month : ℕ) : 0 < monthLength year month := by
  unfold monthLength
  split
  · split_ifs <;> norm_num
  all_goals norm_num

theorem yearStart_apart (a b : ℤ) (below : a < b) : yearStart a + yearLength a ≤ yearStart b := by
  rw [← yearStart_succ]
  induction b, (show a + 1 ≤ b from below) using Int.leInduction with
  | base => exact le_refl _
  | succ b _ ih =>
      have before := ih (by omega)
      have next := yearStart_succ b
      have longer := yearLength_pos b
      omega

theorem monthStart_succ (year : ℤ) {month : ℕ} (pos : 1 ≤ month)
    : monthStart year (month + 1) = monthStart year month + monthLength year month := by
  unfold monthStart
  rw [show month + 1 - 1 = (month - 1) + 1 by omega, Finset.sum_range_succ,
    show month - 1 + 1 = month by omega]

theorem monthStart_nonneg (year : ℤ) (month : ℕ) : 0 ≤ monthStart year month :=
  Finset.sum_nonneg fun k _ => (monthLength_pos year (k + 1)).le

theorem monthStart_apart (year : ℤ) {a b : ℕ} (pos : 1 ≤ a) (below : a < b)
    : monthStart year a + monthLength year a ≤ monthStart year b := by
  rw [← monthStart_succ year pos]
  induction b, (show a + 1 ≤ b from below) using Nat.le_induction with
  | base => exact le_refl _
  | succ b later ih =>
      have before := ih (by omega)
      have next := monthStart_succ year (show 1 ≤ b by omega)
      have longer := monthLength_pos year b
      omega

/-- The months make up the year. -/
theorem monthStart_end (year : ℤ) : monthStart year 13 = yearLength year := by
  simp only [monthStart, yearLength, Finset.sum_range_succ, Finset.sum_range_zero, monthLength]
  split_ifs <;> norm_num

theorem DateExists.in_year {year : ℤ} {month day : ℕ} (date : DateExists year month day)
    : 0 ≤ monthStart year month + ((day : ℤ) - 1)
      ∧ monthStart year month + ((day : ℤ) - 1) < yearLength year := by
  obtain ⟨monthPos, monthLe, dayPos, dayLe⟩ := date
  have := monthStart_nonneg year month
  have inYear : monthStart year month + monthLength year month ≤ monthStart year 13 :=
    monthStart_apart year monthPos (by omega)
  rw [monthStart_end] at inYear
  omega

/-- Days are numbered in the order of their dates. -/
theorem dayNumber_lt_iff {y₁ y₂ : ℤ} {m₁ m₂ d₁ d₂ : ℕ} (first : DateExists y₁ m₁ d₁)
    (second : DateExists y₂ m₂ d₂)
    : dayNumber y₁ m₁ d₁ < dayNumber y₂ m₂ d₂
      ↔ y₁ < y₂ ∨ y₁ = y₂ ∧ (m₁ < m₂ ∨ m₁ = m₂ ∧ d₁ < d₂) := by
  rw [dayNumber, dayNumber, position_lt_iff yearStart_apart first.in_year second.in_year]
  refine or_congr_right (and_congr_right ?_)
  rintro rfl
  obtain ⟨monthPos, -, dayPos, dayLe⟩ := first
  obtain ⟨monthPos', -, dayPos', dayLe'⟩ := second
  rcases lt_trichotomy m₁ m₂ with below | rfl | above
  · have := monthStart_apart y₁ monthPos below
    simp only [below, true_or, iff_true]
    omega
  · simp
  · have := monthStart_apart y₁ monthPos' above
    simp only [not_lt_of_gt above, (ne_of_lt above).symm, false_and, or_self, iff_false]
    omega

theorem dayNumber_inj {y₁ y₂ : ℤ} {m₁ m₂ d₁ d₂ : ℕ} (first : DateExists y₁ m₁ d₁)
    (second : DateExists y₂ m₂ d₂) (same : dayNumber y₁ m₁ d₁ = dayNumber y₂ m₂ d₂)
    : y₁ = y₂ ∧ m₁ = m₂ ∧ d₁ = d₂ := by
  have below := dayNumber_lt_iff first second
  have above := dayNumber_lt_iff second first
  rw [same] at below
  rw [same] at above
  have notBelow := mt below.mpr (lt_irrefl _)
  have notAbove := mt above.mpr (lt_irrefl _)
  omega

end BeetleMemory.Gregorian

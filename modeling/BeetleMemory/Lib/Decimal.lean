import Mathlib

/-! Numbers in decimal digits: reading them with a sign and a limit, and writing them with zeros in
front.
-/

namespace BeetleMemory.Decimal

/-- The number that a text of digits writes. -/
def number (text : List Char) : Option Nat :=
  if !text.isEmpty && text.all Char.isDigit then some (Nat.ofDigitChars 10 text 0) else none

/-- A number below the limit, with or without a plus sign. -/
def unsigned (limit : Nat) (text : List Char) : Option Nat :=
  let digits := match text with
    | '+' :: rest => rest
    | _ => text
  (number digits).filter (· < limit)

/-- A number from minus the limit to below the limit. -/
def signed (limit : Nat) (text : List Char) : Option Int :=
  match text with
  | '-' :: rest => ((number rest).filter (· ≤ limit)).map fun n => -(n : Int)
  | _ => (unsigned limit text).map fun n => (n : Int)

/-- The digits of a number, with zeros in front up to a width. -/
def padded (width n : Nat) : List Char :=
  List.replicate (width - (Nat.toDigits 10 n).length) '0' ++ Nat.toDigits 10 n

theorem ofDigitChars_replicate_zero (count : Nat) (text : List Char)
    : Nat.ofDigitChars 10 (List.replicate count '0' ++ text) 0 = Nat.ofDigitChars 10 text 0 := by
  induction count with
  | zero => rfl
  | succ count ih =>
      rw [List.replicate_succ, List.cons_append, Nat.ofDigitChars_cons]
      exact ih

theorem isDigit_of_mem_padded {width n : Nat} {c : Char} (member : c ∈ padded width n)
    : c.isDigit = true := by
  rcases List.mem_append.mp member with zero | digit
  · rw [List.eq_of_mem_replicate zero]
    rfl
  · exact Nat.isDigit_of_mem_toDigits (by omega) (by omega) digit

theorem padded_ne_nil (width n : Nat) : padded width n ≠ [] := by
  intro empty
  have digits := (List.append_eq_nil_iff.mp empty).2
  have some := Nat.length_toDigits_pos (b := 10) (n := n)
  rw [digits] at some
  exact absurd some (by simp)

theorem number_padded (width n : Nat) : number (padded width n) = some n := by
  have digits : (padded width n).all Char.isDigit = true :=
    List.all_eq_true.mpr fun c member => isDigit_of_mem_padded member
  have some : (padded width n).isEmpty = false := by simpa using padded_ne_nil width n
  rw [number, digits, some]
  simp only [padded, ofDigitChars_replicate_zero,
    Nat.ofDigitChars_toDigits (show 1 < 10 by omega) (le_refl 10)]
  rfl

/-- The first character of a number is a digit. -/
theorem exists_cons_padded (width n : Nat)
    : ∃ c rest, padded width n = c :: rest ∧ c.isDigit = true := by
  obtain ⟨c, rest, shape⟩ := List.exists_cons_of_ne_nil (padded_ne_nil width n)
  exact ⟨c, rest, shape, isDigit_of_mem_padded (by rw [shape]; exact List.mem_cons_self)⟩

/-- A text that does not begin with a sign is read as it is. -/
theorem unsigned_of_digit {limit : Nat} {c : Char} {rest : List Char} (digit : c.isDigit = true)
    : unsigned limit (c :: rest) = (number (c :: rest)).filter (· < limit) := by
  have noSign : c ≠ '+' := by
    rintro rfl
    exact absurd digit (by decide)
  unfold unsigned
  split
  · simp_all
  · rfl

theorem signed_of_digit {limit : Nat} {c : Char} {rest : List Char} (digit : c.isDigit = true)
    : signed limit (c :: rest) = (unsigned limit (c :: rest)).map fun n => (n : Int) := by
  have noSign : c ≠ '-' := by
    rintro rfl
    exact absurd digit (by decide)
  unfold signed
  split
  · simp_all
  · rfl

theorem unsigned_padded (limit width n : Nat)
    : unsigned limit (padded width n) = if n < limit then some n else none := by
  obtain ⟨c, rest, shape, digit⟩ := exists_cons_padded width n
  have value := number_padded width n
  rw [shape] at value ⊢
  rw [unsigned_of_digit digit, value]
  by_cases small : n < limit <;> simp [Option.filter, small]

theorem signed_padded (limit width n : Nat)
    : signed limit (padded width n) = if n < limit then some (n : Int) else none := by
  obtain ⟨c, rest, shape, digit⟩ := exists_cons_padded width n
  have value := unsigned_padded limit width n
  rw [shape] at value ⊢
  rw [signed_of_digit digit, value]
  by_cases small : n < limit <;> simp [small]

theorem number_eq_none {text : List Char} {c : Char} (member : c ∈ text)
    (other : c.isDigit = false)
    : number text = none := by
  have mixed : text.all Char.isDigit = false := by
    rw [List.all_eq_false]
    exact ⟨c, member, by simp [other]⟩
  simp [number, mixed]

end BeetleMemory.Decimal

import Mathlib

/-! Patterns in which one symbol stands for any string, and the strings that belong to them. -/

namespace BeetleMemory.Globs

variable {α : Type} {star : α} {pattern text front back word : List α}

/-- The text is the pattern with every star replaced by some string. -/
inductive Matches (star : α) : List α → List α → Prop
  | nil : Matches star [] []
  | plain {c : α} {pattern text : List α} (other : c ≠ star) (rest : Matches star pattern text)
    : Matches star (c :: pattern) (c :: text)
  | star (part : List α) {pattern text : List α} (rest : Matches star pattern text)
    : Matches star (star :: pattern) (part ++ text)

namespace Matches

/-- A pattern belongs to itself: a star may stand for a star. -/
theorem refl [DecidableEq α] (pattern : List α) : Matches star pattern pattern := by
  induction pattern with
  | nil => exact .nil
  | cons c pattern ih =>
      by_cases here : c = star
      · subst here
        exact .star [c] ih
      · exact .plain here ih

theorem append {otherPattern otherText : List α} (left : Matches star pattern text)
    (right : Matches star otherPattern otherText)
    : Matches star (pattern ++ otherPattern) (text ++ otherText) := by
  induction left with
  | nil => exact right
  | plain other _ ih => exact .plain other ih
  | star part _ ih =>
      rw [List.append_assoc]
      exact .star part ih

theorem any (text : List α) : Matches star [star] text := by
  simpa using Matches.star text Matches.nil

/-- One symbol in the place of every star. -/
theorem map_star [DecidableEq α] (c : α) (pattern : List α)
    : Matches star pattern (pattern.map fun d => if d = star then c else d) := by
  induction pattern with
  | nil => exact .nil
  | cons d pattern ih =>
      rw [List.map_cons]
      split_ifs with here
      · subst here
        exact .star [c] ih
      · exact .plain here ih

/-- Only stars stand for nothing. -/
theorem eq_star_of_nil (matched : Matches star pattern []) : ∀ c ∈ pattern, c = star := by
  generalize empty : ([] : List α) = text at matched
  induction matched with
  | nil => simp
  | plain => cases empty
  | star part _ ih =>
      obtain ⟨-, rest⟩ := List.append_eq_nil_iff.mp empty.symm
      exact List.forall_mem_cons.mpr ⟨rfl, ih rest.symm⟩

end Matches

/-- A pattern that begins without a star. -/
theorem matches_append_iff (plain : star ∉ front)
    : Matches star (front ++ pattern) text
      ↔ ∃ rest, text = front ++ rest ∧ Matches star pattern rest := by
  induction front generalizing text with
  | nil => simp
  | cons c front ih =>
      rw [List.mem_cons, not_or] at plain
      obtain ⟨other, later⟩ := plain
      constructor
      · intro matched
        cases matched with
        | plain _ rest =>
            obtain ⟨tail, rfl, tails⟩ := (ih later).mp rest
            exact ⟨tail, rfl, tails⟩
        | star => exact absurd rfl other
      · rintro ⟨tail, rfl, tails⟩
        exact .plain (Ne.symm other) ((ih later).mpr ⟨tail, rfl, tails⟩)

theorem matches_plain_iff (plain : star ∉ pattern)
    : Matches star pattern text ↔ text = pattern := by
  rw [← List.append_nil pattern, matches_append_iff plain, List.append_nil]
  constructor
  · rintro ⟨rest, rfl, none⟩
    cases none
    exact List.append_nil pattern
  · rintro rfl
    exact ⟨[], (List.append_nil text).symm, .nil⟩

/-- A pattern with one star. -/
theorem matches_single_iff (plain : star ∉ front) (plainBack : star ∉ back)
    : Matches star (front ++ star :: back) text ↔ ∃ part, text = front ++ (part ++ back) := by
  rw [matches_append_iff plain]
  constructor
  · rintro ⟨rest, rfl, matched⟩
    cases matched with
    | plain other => exact absurd rfl other
    | star part rest =>
        rw [(matches_plain_iff plainBack).mp rest]
        exact ⟨part, rfl⟩
  · rintro ⟨part, rfl⟩
    exact ⟨part ++ back, rfl, .star part ((matches_plain_iff plainBack).mpr rfl)⟩

end BeetleMemory.Globs

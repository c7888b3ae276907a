import Mathlib

/-! Texts that tell the values of a countable type apart, as an injective digest does. -/

namespace BeetleMemory.Digests

instance countableChar : Countable Char :=
  Function.Injective.countable fun _ _ same => Char.toNat_inj.mp same

instance countableString : Countable String :=
  Function.Injective.countable fun _ _ same => String.toList_inj.mp same

/-- The text of a number: that many letters. -/
def numberText (n : Nat) : String :=
  String.ofList (List.replicate n 'a')

theorem numberText_injective : Function.Injective numberText := by
  intro n m same
  have lengths := congrArg (fun text => text.toList.length) same
  simpa [numberText] using lengths

/-- The decimal text of a number tells which one it is. -/
theorem toString_injective : Function.Injective (toString : Nat → String) := by
  intro n m same
  have digits : Nat.toDigits 10 n = Nat.toDigits 10 m := by
    have lists := congrArg String.toList same
    simpa [toString, Nat.repr] using lists
  have values := congrArg (fun digits => Nat.ofDigitChars 10 digits 0) digits
  simpa [Nat.ofDigitChars_toDigits] using values

theorem exists_injective_text (α : Type) [Countable α]
    : ∃ text : α → String, Function.Injective text := by
  obtain ⟨number, injective⟩ := exists_injective_nat α
  exact ⟨numberText ∘ number, numberText_injective.comp injective⟩

/-- The text with one character for each byte. -/
def byteText (bytes : List UInt8) : String :=
  String.ofList (bytes.map UInt8.toChar)

theorem byteText_injective : Function.Injective byteText := by
  have chars : Function.Injective UInt8.toChar := by
    intro a b same
    have values := congrArg Char.toNat same
    simpa [UInt8.toChar, Char.toNat, ← UInt8.toNat_inj] using values
  intro bytes other same
  have lists := congrArg String.toList same
  simp only [byteText, String.toList_ofList] at lists
  exact List.map_injective_iff.mpr chars lists

end BeetleMemory.Digests

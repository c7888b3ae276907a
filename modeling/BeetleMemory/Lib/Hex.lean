import Mathlib

/-! Bytes as lower-case hexadecimal digits, two for each byte. -/

namespace BeetleMemory.Hex

def digit (n : Nat) : Char :=
  "0123456789abcdef".toList.getD n '0'

/-- The value of one digit. -/
def nibble (c : Char) : Option Nat :=
  if '0' ≤ c ∧ c ≤ '9' then some (c.toNat - '0'.toNat)
  else if 'a' ≤ c ∧ c ≤ 'f' then some (c.toNat - 'a'.toNat + 10)
  else none

def encode (bytes : List UInt8) : List Char :=
  bytes.flatMap fun byte => [digit (byte.toNat / 16), digit (byte.toNat % 16)]

def decode : List Char → Option (List UInt8)
  | [] => some []
  | high :: low :: rest => do
      let high ← nibble high
      let low ← nibble low
      return UInt8.ofNat (16 * high + low) :: (← decode rest)
  | [_] => none

theorem nibble_digit {n : Nat} (small : n < 16) : nibble (digit n) = some n := by
  interval_cases n <;> decide

theorem decode_encode (bytes : List UInt8) : decode (encode bytes) = some bytes := by
  induction bytes with
  | nil => rfl
  | cons byte bytes ih =>
      have whole : byte.toNat < 256 := byte.toNat_lt
      have halves : UInt8.ofNat (16 * (byte.toNat / 16) + byte.toNat % 16) = byte := by
        rw [Nat.div_add_mod, UInt8.ofNat_toNat]
      rw [encode, List.flatMap_cons, ← encode]
      simp only [List.cons_append, List.nil_append, decode, ih, Option.bind_eq_bind,
        nibble_digit (show byte.toNat / 16 < 16 by omega),
        nibble_digit (show byte.toNat % 16 < 16 by omega), Option.bind_some, halves]
      rfl

theorem length_encode (bytes : List UInt8) : (encode bytes).length = 2 * bytes.length := by
  induction bytes with
  | nil => rfl
  | cons byte bytes ih =>
      rw [encode, List.flatMap_cons, ← encode, List.length_append, ih]
      simp
      omega

/-- The digits are among sixteen characters. -/
theorem mem_encode {bytes : List UInt8} {c : Char} (member : c ∈ encode bytes)
    : c ∈ "0123456789abcdef".toList := by
  have inside : ∀ n < 16, digit n ∈ "0123456789abcdef".toList := by decide
  obtain ⟨byte, -, here⟩ := List.mem_flatMap.mp member
  have whole : byte.toNat < 256 := byte.toNat_lt
  rcases List.mem_pair.mp here with rfl | rfl
  · exact inside _ (by omega)
  · exact inside _ (by omega)

end BeetleMemory.Hex

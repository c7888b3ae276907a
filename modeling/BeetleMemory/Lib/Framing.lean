import BeetleMemory.Lib.JsonText

/-! Byte strings put one after the other, each behind its length. Nothing about where one ends and
the next begins is lost.
-/

namespace BeetleMemory.Framing

/-- A number as so many bytes, the most significant first. -/
def bigEndian : Nat → Nat → List UInt8
  | 0, _ => []
  | width + 1, n => bigEndian width (n / 256) ++ [UInt8.ofNat n]

@[simp]
theorem length_bigEndian (width n : Nat) : (bigEndian width n).length = width := by
  induction width generalizing n with
  | zero => rfl
  | succ width ih => simp [bigEndian, ih]

theorem bigEndian_inj {width n m : Nat} (fits : n < 256 ^ width) (otherFits : m < 256 ^ width)
    (same : bigEndian width n = bigEndian width m)
    : n = m := by
  induction width generalizing n m with
  | zero => omega
  | succ width ih =>
      obtain ⟨high, low⟩ := List.append_inj' same rfl
      have quotients : n / 256 = m / 256 := by
        refine ih ?_ ?_ high
        · exact Nat.div_lt_of_lt_mul (by rwa [pow_succ'] at fits)
        · exact Nat.div_lt_of_lt_mul (by rwa [pow_succ'] at otherFits)
      have remainders : n % 256 = m % 256 := by
        have bytes := congrArg UInt8.toNat (List.singleton_inj.mp low)
        simpa using bytes
      omega

/-- A field behind its length in eight bytes. -/
def frame (field : List UInt8) : List UInt8 :=
  bigEndian 8 field.length ++ field

def frames (fields : List (List UInt8)) : List UInt8 :=
  fields.flatMap frame

/-- The length of the field is one that eight bytes can say. -/
def Short (field : List UInt8) : Prop :=
  field.length < 256 ^ 8

theorem frame_append_inj {field other rest otherRest : List UInt8} (short : Short field)
    (otherShort : Short other) (same : frame field ++ rest = frame other ++ otherRest)
    : field = other ∧ rest = otherRest := by
  simp only [frame, List.append_assoc] at same
  obtain ⟨lengths, same⟩ := List.append_inj same (by simp)
  exact List.append_inj same (bigEndian_inj short otherShort lengths)

/-- The bytes determine the fields. -/
theorem frames_inj {fields others : List (List UInt8)} (short : ∀ field ∈ fields, Short field)
    (otherShort : ∀ field ∈ others, Short field) (same : frames fields = frames others)
    : fields = others := by
  induction fields generalizing others with
  | nil =>
      cases others with
      | nil => rfl
      | cons other others =>
          have lengths := congrArg List.length same
          simp [frames, frame] at lengths
          omega
  | cons field fields ih =>
      cases others with
      | nil =>
          have lengths := congrArg List.length same
          simp [frames, frame] at lengths
      | cons other others =>
          obtain ⟨here, later⟩ := List.forall_mem_cons.mp short
          obtain ⟨otherHere, otherLater⟩ := List.forall_mem_cons.mp otherShort
          obtain ⟨rfl, rest⟩ := frame_append_inj here otherHere same
          rw [ih later otherLater rest]

/-- The UTF-8 bytes of a text determine it. -/
theorem utf8_injective
    : Function.Injective fun text : String => text.toList.flatMap String.utf8EncodeChar := by
  intro text other same
  have decoded := JsonText.fromUTF8?_utf8Encode text.toList
  rw [show text.toList.flatMap String.utf8EncodeChar
    = other.toList.flatMap String.utf8EncodeChar from same, JsonText.fromUTF8?_utf8Encode]
    at decoded
  simpa using decoded.symm

end BeetleMemory.Framing

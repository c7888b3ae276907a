import BeetleMemory.Transcript.KeyCollisions
import BeetleMemory.LongTerm.Texts

/-! Storage keys of conversations, turns and aliases: components behind a label and their length, each
percent-encoded. The length says where a component ends, so nothing in it can pass for a separator.
-/

namespace BeetleMemory.Transcript

open Store (textBytes textLen)
open LongTerm (trim textLen_of_ascii)

/-! ## Keys -/

def keptInKey (c : Char) : Bool :=
  ('0' ≤ c && c ≤ '9') || ('a' ≤ c && c ≤ 'z') || ('A' ≤ c && c ≤ 'Z') || c == '_' || c == '-'
    || c == '.'

def upperDigit (n : Nat) : Char :=
  "0123456789ABCDEF".toList.getD n '0'

def encodeKeyByte (byte : UInt8) : List Char :=
  let ch := Char.ofNat byte.toNat
  if keptInKey ch then [ch]
  else ['%', upperDigit (byte.toNat / 16), upperDigit (byte.toNat % 16)]

def encodeKeyComponent (raw : String) : String :=
  let trimmed := trim raw
  if trimmed.isEmpty then "_" else String.ofList ((textBytes trimmed).flatMap encodeKeyByte)

def encodeLabeledKeyComponent (label raw : String) : String :=
  let encoded := encodeKeyComponent raw
  label ++ toString (textLen encoded) ++ ":" ++ encoded

namespace ConversationKey

variable (self : ConversationKey)

def storageKey : String :=
  encodeLabeledKeyComponent "ms" self.memorySpaceId ++ "__"
    ++ encodeLabeledKeyComponent "ch" self.channelId ++ "__"
    ++ encodeLabeledKeyComponent "cv" self.conversationId

def turnStorageKey (turnId : String) : String :=
  self.storageKey ++ "__" ++ encodeLabeledKeyComponent "turn" turnId

def turnStorageKeyPrefix : String :=
  self.storageKey ++ "__turn"

end ConversationKey

/-- The scope that an alias is stored under. -/
structure AliasScope where
  memorySpaceId : String
  mountedSubjectId : String
  channelId : String
  chatId : String
deriving DecidableEq, Repr

def AliasScope.storageKeyFor (scope : AliasScope) : String :=
  encodeLabeledKeyComponent "ms" scope.memorySpaceId ++ "__"
    ++ encodeLabeledKeyComponent "subject" scope.mountedSubjectId ++ "__"
    ++ encodeLabeledKeyComponent "ch" scope.channelId ++ "__"
    ++ encodeLabeledKeyComponent "chat" scope.chatId

/-! ## Components -/

/-- A component that is trimmed and not empty. -/
structure Component (text : String) : Prop where
  trimmed : trim text = text
  nonempty : text.isEmpty = false

theorem upperDigit_inj {n m : Nat} (small : n < 16) (otherSmall : m < 16)
    (same : upperDigit n = upperDigit m)
    : n = m := by
  have distinct : ∀ n < 16, ∀ m < 16, upperDigit n = upperDigit m → n = m := by decide
  exact distinct n small m otherSmall same

theorem byte_of_char {byte other : UInt8}
    (same : Char.ofNat byte.toNat = Char.ofNat other.toNat)
    : byte = other := by
  have value : ∀ b : UInt8, (Char.ofNat b.toNat).toNat = b.toNat := by
    intro b
    have small : b.toNat < 256 := b.toNat_lt
    have valid : b.toNat.isValidChar := by
      left
      omega
    rw [Char.toNat_ofNat, if_pos valid]
  have numbers := congrArg Char.toNat same
  rw [value, value] at numbers
  exact UInt8.toNat_inj.mp numbers

/-- The code of a byte says where it ends. -/
theorem encodeKeyByte_append {byte other : UInt8} {rest otherRest : List Char}
    (same : encodeKeyByte byte ++ rest = encodeKeyByte other ++ otherRest)
    : byte = other ∧ rest = otherRest := by
  have percent : keptInKey '%' = false := by decide
  simp only [encodeKeyByte] at same
  split_ifs at same with kept otherKept otherKept
  · obtain ⟨chars, rests⟩ := List.cons.inj same
    exact ⟨byte_of_char chars, rests⟩
  · obtain ⟨mark, -⟩ := List.cons.inj same
    rw [mark, percent] at kept
    cases kept
  · obtain ⟨mark, -⟩ := List.cons.inj same
    rw [← mark, percent] at otherKept
    cases otherKept
  · obtain ⟨-, digits⟩ := List.cons.inj same
    obtain ⟨high, digits⟩ := List.cons.inj digits
    obtain ⟨low, rests⟩ := List.cons.inj digits
    have small : byte.toNat < 256 := byte.toNat_lt
    have otherSmall : other.toNat < 256 := other.toNat_lt
    have highs := upperDigit_inj (by omega) (by omega) high
    have lows := upperDigit_inj (by omega) (by omega) low
    exact ⟨UInt8.toNat_inj.mp (by omega), rests⟩

theorem encodeKeyByte_ne_nil (byte : UInt8) : encodeKeyByte byte ≠ [] := by
  simp only [encodeKeyByte]
  split_ifs <;> simp

theorem flatMap_encodeKeyByte_inj {bytes others : List UInt8}
    (same : bytes.flatMap encodeKeyByte = others.flatMap encodeKeyByte)
    : bytes = others := by
  induction bytes generalizing others with
  | nil =>
      cases others with
      | nil => rfl
      | cons other others =>
          rw [List.flatMap_nil, List.flatMap_cons] at same
          exact absurd (List.append_eq_nil_iff.mp same.symm).1 (encodeKeyByte_ne_nil other)
  | cons byte bytes ih =>
      cases others with
      | nil =>
          rw [List.flatMap_nil, List.flatMap_cons] at same
          exact absurd (List.append_eq_nil_iff.mp same).1 (encodeKeyByte_ne_nil byte)
      | cons other others =>
          rw [List.flatMap_cons, List.flatMap_cons] at same
          obtain ⟨rfl, rest⟩ := encodeKeyByte_append same
          rw [ih rest]

theorem encodeKeyComponent_inj {raw other : String} (component : Component raw)
    (otherComponent : Component other)
    (same : encodeKeyComponent raw = encodeKeyComponent other)
    : raw = other := by
  simp only [encodeKeyComponent, component.trimmed, otherComponent.trimmed, component.nonempty,
    otherComponent.nonempty, Bool.false_eq_true, if_false] at same
  exact textBytes_inj (flatMap_encodeKeyByte_inj (String.ofList_injective same))

theorem encodeKeyComponent_ascii (raw : String)
    : ∀ c ∈ (encodeKeyComponent raw).toList, c.toNat < 128 := by
  have kept : ∀ c, keptInKey c = true → c.toNat < 128 := by
    intro c here
    simp only [keptInKey, Bool.or_eq_true, Bool.and_eq_true, decide_eq_true_eq, beq_iff_eq,
      Char.le_def, UInt32.le_iff_toNat_le] at here
    rcases here with ((((digit | small) | capital) | rfl) | rfl) | rfl
    · exact Nat.lt_of_le_of_lt digit.2 (by decide)
    · exact Nat.lt_of_le_of_lt small.2 (by decide)
    · exact Nat.lt_of_le_of_lt capital.2 (by decide)
    all_goals decide
  have digits : ∀ n < 16, (upperDigit n).toNat < 128 := by decide
  intro c member
  simp only [encodeKeyComponent] at member
  split_ifs at member
  · obtain rfl : c = '_' := by simpa using member
    decide
  · rw [String.toList_ofList] at member
    obtain ⟨byte, -, inside⟩ := List.mem_flatMap.mp member
    have small : byte.toNat < 256 := byte.toNat_lt
    simp only [encodeKeyByte] at inside
    split_ifs at inside with here
    · rw [List.mem_singleton] at inside
      exact inside ▸ kept _ here
    · simp only [List.mem_cons, List.not_mem_nil, or_false] at inside
      rcases inside with rfl | rfl | rfl
      · decide
      · exact digits _ (by omega)
      · exact digits _ (by omega)

theorem toList_labeled (label raw : String)
    : (encodeLabeledKeyComponent label raw).toList
      = label.toList ++ (Nat.toDigits 10 (encodeKeyComponent raw).length
        ++ ':' :: (encodeKeyComponent raw).toList) := by
  have colon : ":".toList = [':'] := rfl
  rw [encodeLabeledKeyComponent, textLen_of_ascii (encodeKeyComponent_ascii raw)]
  simp only [String.toList_append, Nat.toString_eq_ofList_toDigits, String.toList_ofList, colon,
    List.append_assoc, List.singleton_append]

/-- A number up to a colon, and then as many characters. -/
theorem counted_append {front back rest otherRest : List Char}
    (same : Nat.toDigits 10 front.length ++ ':' :: (front ++ rest)
      = Nat.toDigits 10 back.length ++ ':' :: (back ++ otherRest))
    : front = back ∧ rest = otherRest := by
  have count : ∀ n tail, (Nat.toDigits 10 n ++ ':' :: tail).takeWhile (· ≠ ':')
      = Nat.toDigits 10 n := by
    intro n tail
    rw [List.takeWhile_append_of_pos, List.takeWhile_cons_of_neg (by simp), List.append_nil]
    intro c member
    rw [decide_eq_true_eq]
    rintro rfl
    exact absurd (Nat.isDigit_of_mem_toDigits (by omega) (by omega) member) (by decide)
  have counts := congrArg (List.takeWhile (· ≠ ':')) same
  rw [count, count] at counts
  have lengths := congrArg (fun digits => Nat.ofDigitChars 10 digits 0) counts
  simp only [Nat.ofDigitChars_ten_toDigits] at lengths
  rw [counts] at same
  exact List.append_inj (List.cons.inj (List.append_cancel_left same)).2 lengths

/-- A labelled component says where it ends. -/
theorem labeled_append {label raw other : String} {rest otherRest : List Char}
    (component : Component raw) (otherComponent : Component other)
    (same : (encodeLabeledKeyComponent label raw).toList ++ rest
      = (encodeLabeledKeyComponent label other).toList ++ otherRest)
    : raw = other ∧ rest = otherRest := by
  simp only [toList_labeled, List.append_assoc, List.cons_append, ← String.length_toList] at same
  obtain ⟨encoded, rests⟩ := counted_append (List.append_cancel_left same)
  exact ⟨encodeKeyComponent_inj component otherComponent (String.toList_inj.mp encoded), rests⟩

/-! ## Keys that say where they end -/

structure ConversationKey.Proper (key : ConversationKey) : Prop where
  memorySpaceId : Component key.memorySpaceId
  channelId : Component key.channelId
  conversationId : Component key.conversationId

structure AliasScope.Proper (scope : AliasScope) : Prop where
  memorySpaceId : Component scope.memorySpaceId
  mountedSubjectId : Component scope.mountedSubjectId
  channelId : Component scope.channelId
  chatId : Component scope.chatId

theorem storageKey_append {key other : ConversationKey} {rest otherRest : List Char}
    (proper : key.Proper) (otherProper : other.Proper)
    (same : key.storageKey.toList ++ rest = other.storageKey.toList ++ otherRest)
    : key = other ∧ rest = otherRest := by
  simp only [ConversationKey.storageKey, String.toList_append, List.append_assoc] at same
  obtain ⟨spaces, same⟩ := labeled_append proper.memorySpaceId otherProper.memorySpaceId same
  obtain ⟨channels, same⟩ := labeled_append proper.channelId otherProper.channelId
    (List.append_cancel_left same)
  obtain ⟨conversations, rests⟩ := labeled_append proper.conversationId otherProper.conversationId
    (List.append_cancel_left same)
  refine ⟨?_, rests⟩
  cases key
  cases other
  simp_all

theorem turnStorageKey_append {key other : ConversationKey} {turnId otherTurnId : String}
    {rest otherRest : List Char} (proper : key.Proper) (otherProper : other.Proper)
    (turn : Component turnId) (otherTurn : Component otherTurnId)
    (same : (key.turnStorageKey turnId).toList ++ rest
      = (other.turnStorageKey otherTurnId).toList ++ otherRest)
    : key = other ∧ turnId = otherTurnId ∧ rest = otherRest := by
  simp only [ConversationKey.turnStorageKey, String.toList_append, List.append_assoc] at same
  obtain ⟨keys, same⟩ := storageKey_append proper otherProper same
  exact ⟨keys, labeled_append turn otherTurn (List.append_cancel_left same)⟩

theorem storageKeyFor_inj {scope other : AliasScope} (proper : scope.Proper)
    (otherProper : other.Proper) (same : scope.storageKeyFor = other.storageKeyFor)
    : scope = other := by
  have texts := congrArg String.toList same
  simp only [AliasScope.storageKeyFor, String.toList_append, List.append_assoc] at texts
  obtain ⟨spaces, texts⟩ := labeled_append proper.memorySpaceId otherProper.memorySpaceId texts
  obtain ⟨subjects, texts⟩ := labeled_append proper.mountedSubjectId otherProper.mountedSubjectId
    (List.append_cancel_left texts)
  obtain ⟨channels, texts⟩ := labeled_append proper.channelId otherProper.channelId
    (List.append_cancel_left texts)
  have last := List.append_cancel_left texts
  rw [← List.append_nil (encodeLabeledKeyComponent "chat" scope.chatId).toList,
    ← List.append_nil (encodeLabeledKeyComponent "chat" other.chatId).toList] at last
  obtain ⟨chats, -⟩ := labeled_append proper.chatId otherProper.chatId last
  cases scope
  cases other
  simp_all

/-- Keys tell their components; the turn keys that begin with the turn prefix of a conversation are
those of its turns; and no key of a conversation is one of a turn.
-/
theorem storage_keys_injective
    : (∀ key other : ConversationKey, key.Proper → other.Proper
        → key.storageKey = other.storageKey → key = other)
      ∧ (∀ (key other : ConversationKey) (turnId otherTurnId : String), key.Proper → other.Proper
        → Component turnId → Component otherTurnId
        → key.turnStorageKey turnId = other.turnStorageKey otherTurnId
        → key = other ∧ turnId = otherTurnId)
      ∧ (∀ scope other : AliasScope, scope.Proper → other.Proper
        → scope.storageKeyFor = other.storageKeyFor → scope = other)
      ∧ (∀ (key other : ConversationKey) (turnId : String), key.Proper → other.Proper
        → Component turnId
        → key.turnStorageKeyPrefix.toList <+: (other.turnStorageKey turnId).toList → key = other)
      ∧ ∀ (key other : ConversationKey) (turnId : String), key.Proper → other.Proper
        → Component turnId → key.storageKey ≠ other.turnStorageKey turnId := by
  refine ⟨?_, ?_, fun _ _ => storageKeyFor_inj, ?_, ?_⟩
  · intro key other proper otherProper same
    have texts : key.storageKey.toList ++ [] = other.storageKey.toList ++ [] := by rw [same]
    exact (storageKey_append proper otherProper texts).1
  · intro key other turnId otherTurnId proper otherProper turn otherTurn same
    have texts : (key.turnStorageKey turnId).toList ++ []
        = (other.turnStorageKey otherTurnId).toList ++ [] := by rw [same]
    obtain ⟨keys, turns, -⟩ := turnStorageKey_append proper otherProper turn otherTurn texts
    exact ⟨keys, turns⟩
  · rintro key other turnId proper otherProper - ⟨rest, same⟩
    simp only [ConversationKey.turnStorageKeyPrefix, ConversationKey.turnStorageKey,
      String.toList_append, List.append_assoc] at same
    exact (storageKey_append proper otherProper same).1
  · intro key other turnId proper otherProper _ same
    have texts : key.storageKey.toList ++ [] = other.storageKey.toList
        ++ ("__".toList ++ (encodeLabeledKeyComponent "turn" turnId).toList) := by
      rw [same, ConversationKey.turnStorageKey]
      simp only [String.toList_append, List.append_assoc, List.append_nil]
    obtain ⟨-, empty⟩ := storageKey_append proper otherProper texts
    cases empty

/-- Witness: a conversation whose name looks like the key of a turn. -/
theorem separator_in_name
    : (ConversationKey.mk "s" "c" "v__turn1:t").storageKey
      ≠ (ConversationKey.mk "s" "c" "v").turnStorageKey "t" :=
  storage_keys_injective.2.2.2.2 ⟨"s", "c", "v__turn1:t"⟩ ⟨"s", "c", "v"⟩ "t"
    ⟨⟨by decide +kernel, by decide⟩, ⟨by decide +kernel, by decide⟩,
      ⟨by decide +kernel, by decide⟩⟩
    ⟨⟨by decide +kernel, by decide⟩, ⟨by decide +kernel, by decide⟩,
      ⟨by decide +kernel, by decide⟩⟩
    ⟨by decide +kernel, by decide⟩

end BeetleMemory.Transcript

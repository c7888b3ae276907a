import BeetleMemory.LongTerm.Texts
import BeetleMemory.Lib.Decimal

/-! Numbers in the output of a model. A number is read from the first leaf that has one. From a string
all digits are gathered, so that two numbers in it become one, and signs and points are lost.
-/

namespace BeetleMemory.Llm

open Decimal
open LongTerm (trim mem_trim trim_sublist toList_trim)
open Store (isWhitespace)

/-! ## Reading -/

/-- Numbers as the parser keeps them: integers that are not negative, negative integers, and others
by their bits.
-/
inductive Number where
  | posInt (value : UInt64)
  | negInt (value : {value : Int // value < 0})
  | float (bits : UInt64)
deriving DecidableEq, Repr

inductive Value where
  | null
  | bool (flag : Bool)
  | number (number : Number)
  | string (text : String)
  | array (items : List Value)
  | object (members : List (String × Value))

def Number.asU64 : Number → Option Nat
  | .posInt value => some value.toNat
  | _ => none

def Number.asI64 : Number → Option Int
  | .posInt value => if value.toNat < 2 ^ 63 then some value.toNat else none
  | .negInt value => some value.val
  | .float _ => none

/-- A number that is not negative. -/
def tryFrom (value : Int) : Option Nat :=
  if 0 ≤ value then some value.toNat else none

def coerceNumber (number : Number) : Option Nat :=
  number.asU64.or (number.asI64.bind tryFrom)

def coerceText (text : String) : Option Nat :=
  let trimmed := (trim text).toList
  if trimmed.isEmpty then none
  else
    match unsigned (2 ^ 64) trimmed with
    | some value => some value
    | none =>
        let digits := trimmed.filter Char.isDigit
        if digits.isEmpty then none else unsigned (2 ^ 64) digits

/-- The members of an object that a number is looked for in, in this order. -/
def numberKeys : List String :=
  ["value", "seconds", "idle_interval_secs", "interval_secs"]

mutual

def coerceJsonU64 : Value → Option Nat
  | .number number => coerceNumber number
  | .string text => coerceText text
  | .array items => coerceItems items
  | .object members => numberKeys.findSome? fun key => coerceMember key members
  | .bool flag => some flag.toNat
  | .null => none

/-- The first item that has a number. -/
def coerceItems : List Value → Option Nat
  | [] => none
  | item :: rest => (coerceJsonU64 item).or (coerceItems rest)

/-- The number of the member with the given name. -/
def coerceMember (key : String) : List (String × Value) → Option Nat
  | [] => none
  | (name, value) :: rest => if name = key then coerceJsonU64 value else coerceMember key rest

end

def getObjectU64 (object : List (String × Value)) (key : String) : Option Nat :=
  coerceMember key object

/-! ## Leaves -/

/-- The values without parts. -/
inductive Leaf where
  | null
  | bool (flag : Bool)
  | number (number : Number)
  | string (text : String)
deriving DecidableEq, Repr

def Leaf.value : Leaf → Value
  | .null => .null
  | .bool value => .bool value
  | .number value => .number value
  | .string value => .string value

mutual

def leaves : Value → List Leaf
  | .null => [.null]
  | .bool flag => [.bool flag]
  | .number number => [.number number]
  | .string text => [.string text]
  | .array items => itemLeaves items
  | .object members => memberLeaves members

def itemLeaves : List Value → List Leaf
  | [] => []
  | item :: rest => leaves item ++ itemLeaves rest

def memberLeaves : List (String × Value) → List Leaf
  | [] => []
  | (_, value) :: rest => leaves value ++ memberLeaves rest

end

mutual

/-- The leaf that a number is read from. -/
def readFrom : Value → Option Leaf
  | .null => none
  | .bool flag => some (.bool flag)
  | .number number => if (coerceNumber number).isSome then some (.number number) else none
  | .string text => if (coerceText text).isSome then some (.string text) else none
  | .array items => readFromItems items
  | .object members => numberKeys.findSome? fun key => readFromMember key members

def readFromItems : List Value → Option Leaf
  | [] => none
  | item :: rest => (readFrom item).or (readFromItems rest)

def readFromMember (key : String) : List (String × Value) → Option Leaf
  | [] => none
  | (name, value) :: rest => if name = key then readFrom value else readFromMember key rest

end

/-- What it is to read a value through a leaf of it. -/
def ReadThrough (found : Option Leaf) (inside : List Leaf) (number : Option Nat) : Prop :=
  number = found.bind (fun leaf => coerceJsonU64 leaf.value)
    ∧ ∀ leaf ∈ found, leaf ∈ inside ∧ (coerceJsonU64 leaf.value).isSome = true

theorem ReadThrough.nothing (inside : List Leaf) : ReadThrough none inside none :=
  ⟨rfl, by simp⟩

theorem ReadThrough.leaf (leaf : Leaf) (some : (coerceJsonU64 leaf.value).isSome = true)
    : ReadThrough (Option.some leaf) [leaf] (coerceJsonU64 leaf.value) := by
  refine ⟨rfl, fun other found => ?_⟩
  obtain rfl := Option.some.inj found
  exact ⟨List.mem_singleton_self _, some⟩

theorem ReadThrough.or {found₁ found₂ : Option Leaf} {inside₁ inside₂ : List Leaf}
    {number₁ number₂ : Option Nat} (first : ReadThrough found₁ inside₁ number₁)
    (second : ReadThrough found₂ inside₂ number₂)
    : ReadThrough (found₁.or found₂) (inside₁ ++ inside₂) (number₁.or number₂) := by
  obtain ⟨rfl, inFirst⟩ := first
  obtain ⟨rfl, inSecond⟩ := second
  cases found₁ with
  | none =>
      refine ⟨by simp, fun leaf found => ?_⟩
      obtain ⟨member, some⟩ := inSecond leaf (by simpa using found)
      exact ⟨List.mem_append_right _ member, some⟩
  | some leaf =>
      obtain ⟨member, some⟩ := inFirst leaf rfl
      obtain ⟨n, value⟩ := Option.isSome_iff_exists.mp some
      refine ⟨by simp [value], fun other found => ?_⟩
      obtain rfl : leaf = other := by simpa using found
      exact ⟨List.mem_append_left _ member, some⟩

theorem ReadThrough.mono {found : Option Leaf} {inside more : List Leaf} {number : Option Nat}
    (read : ReadThrough found inside number) (wider : ∀ leaf ∈ inside, leaf ∈ more)
    : ReadThrough found more number :=
  ⟨read.1, fun leaf here => ⟨wider leaf (read.2 leaf here).1, (read.2 leaf here).2⟩⟩

/-- Names are tried one after another. -/
theorem ReadThrough.findSome {inside : List Leaf} {found : String → Option Leaf}
    {number : String → Option Nat} (keys : List String)
    (each : ∀ key ∈ keys, ReadThrough (found key) inside (number key))
    : ReadThrough (keys.findSome? found) inside (keys.findSome? number) := by
  induction keys with
  | nil => exact .nothing inside
  | cons key keys ih =>
      have both := (each key (by simp)).or (ih fun other later => each other (by simp [later]))
      rw [List.findSome?_cons, List.findSome?_cons]
      have wide : ReadThrough ((found key).or (keys.findSome? found)) inside
          ((number key).or (keys.findSome? number)) :=
        both.mono fun leaf member => by simpa using member
      cases first : found key <;> cases second : number key <;> rw [first, second] at wide <;>
        exact wide

mutual

theorem readThrough_value : ∀ value, ReadThrough (readFrom value) (leaves value) (coerceJsonU64 value)
  | .null => .nothing _
  | .bool flag => by
      rw [readFrom, leaves]
      exact .leaf (.bool flag) (by rw [Leaf.value, coerceJsonU64]; rfl)
  | .number number => by
      rw [readFrom, leaves]
      split_ifs with some
      · exact .leaf (.number number) (by rw [Leaf.value, coerceJsonU64, some])
      · rw [coerceJsonU64, Option.not_isSome_iff_eq_none.mp some]
        exact .nothing _
  | .string text => by
      rw [readFrom, leaves]
      split_ifs with some
      · exact .leaf (.string text) (by rw [Leaf.value, coerceJsonU64, some])
      · rw [coerceJsonU64, Option.not_isSome_iff_eq_none.mp some]
        exact .nothing _
  | .array items => by
      rw [readFrom, coerceJsonU64, leaves]
      exact readThrough_items items
  | .object members => by
      rw [readFrom, coerceJsonU64, leaves]
      exact .findSome _ fun key _ => readThrough_member key members

theorem readThrough_items
    : ∀ items, ReadThrough (readFromItems items) (itemLeaves items) (coerceItems items)
  | [] => .nothing _
  | item :: rest => by
      rw [readFromItems, itemLeaves, coerceItems]
      exact (readThrough_value item).or (readThrough_items rest)

theorem readThrough_member (key : String)
    : ∀ members, ReadThrough (readFromMember key members) (memberLeaves members)
        (coerceMember key members)
  | [] => .nothing _
  | (name, value) :: rest => by
      rw [readFromMember, coerceMember, memberLeaves]
      split_ifs
      · exact (readThrough_value value).mono fun leaf member => List.mem_append_left _ member
      · exact (readThrough_member key rest).mono fun leaf member => List.mem_append_right _ member

end

/-! ## Digits of a string -/

theorem ofDigitChars_init (text : List Char) (init : Nat)
    : Nat.ofDigitChars 10 text init = init * 10 ^ text.length + Nat.ofDigitChars 10 text 0 := by
  induction text generalizing init with
  | nil => simp [Nat.ofDigitChars]
  | cons c rest ih =>
      rw [Nat.ofDigitChars_cons, Nat.ofDigitChars_cons, ih, ih (10 * 0 + _), List.length_cons,
        pow_succ]
      ring

theorem ofDigitChars_append (front back : List Char)
    : Nat.ofDigitChars 10 (front ++ back) 0
      = Nat.ofDigitChars 10 front 0 * 10 ^ back.length + Nat.ofDigitChars 10 back 0 := by
  rw [Nat.ofDigitChars_append, ofDigitChars_init]

/-- White space is no digit. -/
theorem filter_trim (text : String)
    : (trim text).toList.filter Char.isDigit = text.toList.filter Char.isDigit := by
  have noDigit : ∀ c, isWhitespace c = true → c.isDigit = false := by
    intro c blank
    rw [← Bool.not_eq_true]
    intro digit
    simp only [Char.isDigit, Bool.and_eq_true, decide_eq_true_eq, ge_iff_le,
      UInt32.le_iff_toNat_le] at digit
    have low : 48 ≤ c.toNat := digit.1
    have high : c.toNat ≤ 57 := digit.2
    simp only [isWhitespace, Bool.or_eq_true, Bool.and_eq_true, decide_eq_true_eq,
      beq_iff_eq] at blank
    omega
  have dropped : ∀ l : List Char, (l.dropWhile isWhitespace).filter Char.isDigit
      = l.filter Char.isDigit := by
    intro l
    conv_rhs => rw [← List.takeWhile_append_dropWhile (p := isWhitespace) (l := l)]
    have none : (l.takeWhile isWhitespace).filter Char.isDigit = [] := by
      rw [List.filter_eq_nil_iff]
      intro c member
      simp [noDigit c (List.mem_takeWhile_imp member)]
    rw [List.filter_append, none, List.nil_append]
  rw [toList_trim, List.rdropWhile, List.filter_reverse, dropped, List.filter_reverse,
    List.reverse_reverse, dropped]

theorem filter_of_number {digits : List Char} {n : Nat} (read : number digits = some n)
    : digits.filter Char.isDigit = digits := by
  rw [number] at read
  split_ifs at read with all
  simp only [Bool.and_eq_true] at all
  exact List.filter_eq_self.mpr (List.all_eq_true.mp all.2)

/-- A sign is no digit. -/
theorem number_filter_of_unsigned {limit n : Nat} {text : List Char}
    (read : unsigned limit text = some n)
    : (number (text.filter Char.isDigit)).filter (· < limit) = some n := by
  unfold unsigned at read
  have small := Option.filter_eq_some_iff.mp read
  split at small
  next rest =>
    have plus : ('+' :: rest).filter Char.isDigit = rest.filter Char.isDigit := by
      rw [List.filter_cons_of_neg (by decide)]
    rw [plus, filter_of_number small.1]
    exact Option.filter_eq_some_iff.mpr small
  next =>
    rw [filter_of_number small.1]
    exact Option.filter_eq_some_iff.mpr small

/-- However a string is read, its digits are gathered. -/
theorem coerceText_eq (text : String)
    : coerceText text = (number (text.toList.filter Char.isDigit)).filter (· < 2 ^ 64) := by
  have gathered : ∀ digits : List Char, (∀ c ∈ digits, c.isDigit = true)
      → ∀ limit, unsigned limit digits = (number digits).filter (· < limit) := by
    intro digits all limit
    cases digits with
    | nil => rfl
    | cons c rest => exact unsigned_of_digit (all c (by simp))
  rw [coerceText, ← filter_trim text]
  generalize 2 ^ 64 = limit
  simp only
  split_ifs with empty none
  · rw [List.isEmpty_iff.mp empty]
    rfl
  · cases read : unsigned limit (trim text).toList with
    | some n => exact (number_filter_of_unsigned read).symm
    | none =>
        rw [List.isEmpty_iff.mp none]
        rfl
  · cases read : unsigned limit (trim text).toList with
    | some n => exact (number_filter_of_unsigned read).symm
    | none => exact gathered _ (fun c member => (List.mem_filter.mp member).2) limit

/-! ## Numbers that are written -/

/-- A run of digits between two texts: it cannot be made longer, no minus sign stands in front of it,
and it is no part of a decimal fraction.
-/
structure NumeralAt (front run back : List Char) : Prop where
  nonempty : run ≠ []
  digits : ∀ c ∈ run, c.isDigit = true
  starts : ∀ c ∈ front.getLast?, c.isDigit = false
  ends : ∀ c ∈ back.head?, c.isDigit = false
  unsigned : front.getLast? ≠ some '-'
  not_fraction : ∀ before c, front ≠ before ++ [c, '.'] ∨ c.isDigit = false
  not_whole : ∀ c after, back ≠ '.' :: c :: after ∨ c.isDigit = false

/-- The number is written in the leaf. -/
def WrittenIn (n : Nat) : Leaf → Prop
  | .number (.posInt value) => value.toNat = n
  | .string text => ∃ front run back, text.toList = front ++ (run ++ back)
      ∧ NumeralAt front run back ∧ Nat.ofDigitChars 10 run 0 = n
  | _ => False

def Written (n : Nat) (value : Value) : Prop :=
  ∃ leaf ∈ leaves value, WrittenIn n leaf

def NoBool (value : Value) : Prop :=
  ∀ flag, Leaf.bool flag ∉ leaves value

def zeros (text : List Char) : Prop :=
  ∀ c ∈ text, c.isDigit = true → c = '0'

def digitless (text : List Char) : Prop :=
  ∀ c ∈ text, c.isDigit = false

/-- The leaf is a number, or a string with one run of digits that counts: in front of it are no digits
but zeros, and behind it none, unless all digits of the string are zeros.
-/
def Clean : Leaf → Prop
  | .string text => ∃ front run back, text.toList = front ++ (run ++ back)
      ∧ NumeralAt front run back ∧ zeros front ∧ (digitless back ∨ zeros text.toList)
  | _ => True

theorem ofDigitChars_eq_zero_iff {digits : List Char} (all : ∀ c ∈ digits, c.isDigit = true)
    : Nat.ofDigitChars 10 digits 0 = 0 ↔ ∀ c ∈ digits, c = '0' := by
  induction digits with
  | nil => simp [Nat.ofDigitChars]
  | cons c rest ih =>
      have rest' := ih fun d member => all d (List.mem_cons_of_mem _ member)
      have digit := all c (by simp)
      have value : c.toNat - '0'.toNat = 0 ↔ c = '0' := by
        simp only [Char.isDigit, Bool.and_eq_true, decide_eq_true_eq, ge_iff_le,
          UInt32.le_iff_toNat_le] at digit
        have low : 48 ≤ c.toNat := digit.1
        constructor
        · intro same
          apply Char.ext
          apply UInt32.toNat_inj.mp
          change c.toNat = 48
          have zero : '0'.toNat = 48 := rfl
          omega
        · rintro rfl
          rfl
      rw [Nat.ofDigitChars_cons, ofDigitChars_init, Nat.mul_zero, Nat.zero_add,
        Nat.add_eq_zero_iff, Nat.mul_eq_zero, rest', List.forall_mem_cons, value]
      simp

theorem zeros_filter (text : List Char)
    : zeros text ↔ ∀ c ∈ text.filter Char.isDigit, c = '0' := by
  simp [zeros]

theorem digitless_filter (text : List Char) : digitless text ↔ text.filter Char.isDigit = [] := by
  simp [digitless, List.filter_eq_nil_iff]

/-- All digits together have the value of one run only if no other digit counts. -/
theorem gathered_eq_iff {front run back : List Char} (digits : ∀ c ∈ run, c.isDigit = true)
    : Nat.ofDigitChars 10 ((front ++ (run ++ back)).filter Char.isDigit) 0
        = Nat.ofDigitChars 10 run 0
      ↔ zeros front ∧ (digitless back ∨ zeros (front ++ (run ++ back))) := by
  have isDigit : ∀ text : List Char, ∀ c ∈ text.filter Char.isDigit, c.isDigit = true :=
    fun text c member => (List.mem_filter.mp member).2
  have split : zeros (front ++ (run ++ back)) ↔ zeros front ∧ zeros run ∧ zeros back := by
    simp [zeros, or_imp, forall_and]
  rw [split, zeros_filter front, zeros_filter run, zeros_filter back,
    ← ofDigitChars_eq_zero_iff (isDigit front), ← ofDigitChars_eq_zero_iff (isDigit run),
    ← ofDigitChars_eq_zero_iff (isDigit back), digitless_filter, List.filter_append,
    List.filter_append, List.filter_eq_self.mpr digits, ofDigitChars_append, ofDigitChars_append]
  generalize Nat.ofDigitChars 10 (front.filter Char.isDigit) 0 = before
  generalize Nat.ofDigitChars 10 run 0 = value
  generalize back.filter Char.isDigit = tail
  have more : before ≤ before * 10 ^ (run ++ tail).length :=
    Nat.le_mul_of_pos_right before (by positivity)
  cases tail with
  | nil =>
      have none : Nat.ofDigitChars 10 [] 0 = 0 := rfl
      simp only [List.length_nil, pow_zero, Nat.mul_one, true_or, and_true, none,
        Nat.add_zero] at more ⊢
      constructor
      · intro same
        omega
      · rintro rfl
        simp
  | cons c rest =>
      have ten : 10 ≤ 10 ^ (c :: rest).length := Nat.le_self_pow (by simp) 10
      generalize Nat.ofDigitChars 10 (c :: rest) 0 = after
      have times : value * 10 ≤ value * 10 ^ (c :: rest).length := Nat.mul_le_mul_left _ ten
      simp only [reduceCtorEq, false_or]
      constructor
      · intro same
        omega
      · rintro ⟨rfl, -, rfl, rfl⟩
        simp

theorem clean_iff {leaf : Leaf} {n : Nat} (plain : ∀ flag, leaf ≠ .bool flag)
    (read : coerceJsonU64 leaf.value = some n)
    : WrittenIn n leaf ↔ Clean leaf := by
  cases leaf with
  | null => simp [Leaf.value, coerceJsonU64] at read
  | bool flag => exact absurd rfl (plain flag)
  | number value =>
      rw [Leaf.value, coerceJsonU64] at read
      cases value with
      | posInt value => simpa [WrittenIn, Clean, coerceNumber, Number.asU64] using read
      | negInt value =>
          have below := value.property
          simp [coerceNumber, Number.asU64, Number.asI64, tryFrom] at read
          omega
      | float bits => simp [coerceNumber, Number.asU64, Number.asI64] at read
  | string text =>
      rw [Leaf.value, coerceJsonU64, coerceText_eq] at read
      obtain ⟨value, -⟩ := Option.filter_eq_some_iff.mp read
      rw [number] at value
      split_ifs at value
      obtain rfl := Option.some.inj value
      rw [WrittenIn, Clean]
      refine exists_congr fun front => exists_congr fun run => exists_congr fun back => ?_
      refine and_congr_right fun shape => and_congr_right fun numeral => ?_
      rw [shape, ← gathered_eq_iff numeral.digits]
      exact eq_comm

theorem readFrom_leaf {leaf : Leaf} {n : Nat} (read : coerceJsonU64 leaf.value = some n)
    : readFrom leaf.value = some leaf ∧ leaves leaf.value = [leaf] := by
  cases leaf with
  | null => simp [Leaf.value, coerceJsonU64] at read
  | bool flag => simp [Leaf.value, readFrom, leaves]
  | number value =>
      rw [Leaf.value, coerceJsonU64] at read
      simp [Leaf.value, readFrom, leaves, read]
  | string text =>
      rw [Leaf.value, coerceJsonU64] at read
      simp [Leaf.value, readFrom, leaves, read]

/-- A leaf is clean if the number read from it is written in every value that is read from it. -/
theorem written_of_leaf_iff {leaf : Leaf} {n : Nat} (plain : ∀ flag, leaf ≠ .bool flag)
    (read : coerceJsonU64 leaf.value = some n)
    : (∀ value, NoBool value → readFrom value = some leaf → Written n value) ↔ Clean leaf := by
  constructor
  · intro all
    obtain ⟨from_, only⟩ := readFrom_leaf read
    have noBool : NoBool leaf.value := by
      intro flag member
      rw [only, List.mem_singleton] at member
      exact plain flag member.symm
    obtain ⟨other, member, written⟩ := all leaf.value noBool from_
    rw [only, List.mem_singleton] at member
    exact (clean_iff plain read).mp (member ▸ written)
  · intro clean value noBool found
    exact ⟨leaf, ((readThrough_value value).2 leaf found).1, (clean_iff plain read).mpr clean⟩

/-- A number is read from one leaf of the value. It is a number written there if the leaf is clean;
and a leaf that is not clean makes some value be read as a number that is not written in it.
-/
theorem number_written_iff (value : Value) (n : Nat) (noBool : NoBool value)
    (read : coerceJsonU64 value = some n)
    : ∃ leaf ∈ leaves value, readFrom value = some leaf ∧ coerceJsonU64 leaf.value = some n
      ∧ (Clean leaf → Written n value)
      ∧ ((∀ other, NoBool other → readFrom other = some leaf → Written n other)
        ↔ Clean leaf) := by
  obtain ⟨through, inside⟩ := readThrough_value value
  rw [read] at through
  cases found : readFrom value with
  | none =>
      rw [found] at through
      cases through
  | some leaf =>
      rw [found] at through
      obtain ⟨member, -⟩ := inside leaf found
      have plain : ∀ flag, leaf ≠ .bool flag := fun flag same => noBool flag (same ▸ member)
      have leafwise := written_of_leaf_iff plain through.symm
      exact ⟨leaf, member, rfl, through.symm, fun clean => leafwise.mpr clean value noBool found,
        leafwise⟩

/-- Two numbers in a string are read as one that is not there. -/
theorem range_read_as_one
    : coerceJsonU64 (.object [("value", .string "3-5")]) = some 35
      ∧ NoBool (.object [("value", .string "3-5")])
      ∧ ¬ Written 35 (.object [("value", .string "3-5")]) := by
  have read : coerceText "3-5" = some 35 := by decide +kernel
  have only : leaves (.object [("value", .string "3-5")]) = [.string "3-5"] := by
    simp [leaves, memberLeaves]
  refine ⟨?_, by simp [NoBool, only], ?_⟩
  · simp [coerceJsonU64, coerceMember, numberKeys, read]
  · rintro ⟨leaf, member, written⟩
    rw [only, List.mem_singleton] at member
    subst member
    obtain ⟨front, run, back, shape, numeral, clean, rest⟩ :=
      (clean_iff (by simp) (by rw [Leaf.value, coerceJsonU64, read])).mp written
    have text : "3-5".toList = ['3', '-', '5'] := rfl
    have counts : ¬ zeros ['3', '-', '5'] := fun all => absurd (all '3' (by simp)) (by decide)
    rw [text] at shape rest
    cases front with
    | cons c front =>
        obtain rfl : '3' = c := (List.cons.inj shape).1
        exact absurd (clean '3' (by simp)) (by decide)
    | nil =>
        cases run with
        | nil => exact numeral.nonempty rfl
        | cons c run =>
            cases run with
            | nil =>
                obtain rfl : ['-', '5'] = back := (List.cons.inj shape).2
                rcases rest with none | all
                · exact absurd (none '5' (by simp)) (by decide)
                · exact counts all
            | cons d run =>
                obtain rfl : '-' = d := (List.cons.inj (List.cons.inj shape).2).1
                exact absurd (numeral.digits '-' (by simp)) (by decide)

/-- Witness: a string with one number. -/
theorem seconds_written : Written 30 (.object [("value", .string "in 30 s")]) := by
  have read : coerceText "in 30 s" = some 30 := by decide +kernel
  have only : leaves (.object [("value", .string "in 30 s")]) = [.string "in 30 s"] := by
    simp [leaves, memberLeaves]
  obtain ⟨leaf, member, -, -, written, -⟩ := number_written_iff
    (.object [("value", .string "in 30 s")]) 30 (by simp [NoBool, only])
    (by simp [coerceJsonU64, coerceMember, numberKeys, read])
  rw [only, List.mem_singleton] at member
  subst member
  refine written ⟨['i', 'n', ' '], ['3', '0'], [' ', 's'], rfl, ⟨by simp, by simp, by simp, by simp,
    by simp, ?_, ?_⟩, by simp [zeros], .inl (by simp [digitless])⟩
  · intro before c
    left
    intro same
    have last := congrArg List.getLast? same
    simp at last
  · intro c after
    left
    simp

end BeetleMemory.Llm

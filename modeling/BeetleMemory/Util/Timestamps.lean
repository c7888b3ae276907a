import BeetleMemory.LongTerm.Texts
import BeetleMemory.Util.Calendar
import BeetleMemory.Lib.Decimal

/-! Timestamps in texts. The reader takes a zone offset off and does not count it; it asks of a day
only that it is at most 31, and counts a year before 1970 like 1970.
-/

namespace BeetleMemory.Util

open Gregorian Decimal
open LongTerm (trim trim_eq_self splitOnce splitOnce_append splitOnce_eq_none textLen_of_ascii)
open Store (textLen isWhitespace)

/-! ## Reading -/

/-- The text before the last occurrence of a character. -/
def beforeLast (c : Char) (text : List Char) : Option (List Char) :=
  match text.reverse.dropWhile (· ≠ c) with
  | [] => none
  | _ :: front => some front.reverse

/-- The text without a zone offset: what follows a plus sign behind the date, or else a minus sign
behind the time.
-/
def stripOffset (text : List Char) : List Char :=
  match beforeLast '+' text with
  | some front => if 10 < textLen (String.ofList front) then front else text
  | none =>
      match beforeLast '-' text with
      | some front => if 16 < textLen (String.ofList front) then front else text
      | none => text

/-- A date and a time without a zone. -/
def parseLocal (s : List Char) : Option Nat := do
  let (date, time) ← splitOnce ['T'] s
  let d := date.splitOn '-'
  let y ← d[0]?.bind (signed (2 ^ 31))
  let m ← d[1]?.bind (unsigned (2 ^ 32))
  let day ← d[2]?.bind (unsigned (2 ^ 32))
  let t := time.splitOn ':'
  let h ← t[0]?.bind (unsigned (2 ^ 32))
  let min ← t[1]?.bind (unsigned (2 ^ 32))
  let secStr ← t[2]?
  let secStr ← (secStr.splitOn '.').head?
  let sec ← unsigned (2 ^ 32) secStr
  if !(1 ≤ m && m ≤ 12) || !(1 ≤ day && day ≤ 31) || 23 < h || 59 < min || 59 < sec then none
  else some (ymdhmsToEpoch ⟨y, m, day, h, min, sec⟩)

def parseIso8601 (s : String) : Option Nat :=
  let s := (trim s).toList
  match unsigned (2 ^ 64) s with
  | some n => some n
  | none => parseLocal (stripOffset (s.rdropWhile (· = 'Z')))

/-! ## Timestamps and the instants they name -/

/-- Nothing, the letter for no offset, or an offset in hours and minutes, to the west or the east. -/
inductive Zone where
  | absent
  | utc
  | offset (west : Bool) (hours minutes : Nat)
deriving DecidableEq, Repr

structure Timestamp where
  year : Nat
  month : Nat
  day : Nat
  hour : Nat
  minute : Nat
  second : Nat
  fraction : Option (List Char)
  zone : Zone
deriving DecidableEq, Repr

/-- The seconds by which the clocks of a zone are ahead. -/
def Zone.seconds : Zone → Int
  | .absent => 0
  | .utc => 0
  | .offset true hours minutes => -(hours * 3600 + minutes * 60 : Int)
  | .offset false hours minutes => (hours * 3600 + minutes * 60 : Int)

def Zone.text : Zone → List Char
  | .absent => []
  | .utc => ['Z']
  | .offset true hours minutes => '-' :: [':'].intercalate [padded 2 hours, padded 2 minutes]
  | .offset false hours minutes => '+' :: [':'].intercalate [padded 2 hours, padded 2 minutes]

namespace Timestamp

variable (stamp : Timestamp)

def dateText : List Char :=
  ['-'].intercalate [padded 4 stamp.year, padded 2 stamp.month, padded 2 stamp.day]

/-- The seconds with their fraction. -/
def secondText : List Char :=
  ['.'].intercalate (padded 2 stamp.second :: stamp.fraction.toList)

def timeText : List Char :=
  [':'].intercalate [padded 2 stamp.hour, padded 2 stamp.minute, stamp.secondText]

def localText : List Char :=
  stamp.dateText ++ 'T' :: stamp.timeText

def text : String :=
  String.ofList (stamp.localText ++ stamp.zone.text)

/-- The Unix second of the instant, if the day exists and the instant is not before the epoch. -/
def instant : Option Nat :=
  if DateExists stamp.year stamp.month stamp.day then
    let second := dayNumber stamp.year stamp.month stamp.day * 86400 + stamp.hour * 3600
      + stamp.minute * 60 + stamp.second - stamp.zone.seconds
    if 0 ≤ second then some second.toNat else none
  else none

/-- A month, a time of day, an offset of less than a day, and digits in the fraction. -/
structure Proper : Prop where
  month_pos : 1 ≤ stamp.month
  month_le : stamp.month ≤ 12
  hour : stamp.hour < 24
  minute : stamp.minute < 60
  second : stamp.second < 60
  fraction : ∀ digits ∈ stamp.fraction, digits ≠ [] ∧ ∀ c ∈ digits, c.isDigit = true
  zone : -86400 < stamp.zone.seconds ∧ stamp.zone.seconds < 86400

end Timestamp

/-! ## The characters of a timestamp -/

theorem beforeLast_append {c : Char} (front : List Char) {back : List Char} (last : c ∉ back)
    : beforeLast c (front ++ c :: back) = some front := by
  have other : ∀ d ∈ back.reverse, decide (d ≠ c) = true := by
    intro d member
    rw [List.mem_reverse] at member
    simpa using fun same : d = c => last (same ▸ member)
  simp only [beforeLast, List.reverse_append, List.reverse_cons, List.append_assoc,
    List.dropWhile_append_of_pos other]
  simp

theorem beforeLast_eq_none {c : Char} {text : List Char} (absent : c ∉ text)
    : beforeLast c text = none := by
  have other : text.reverse.dropWhile (· ≠ c) = [] := by
    rw [List.dropWhile_eq_nil_iff]
    intro d member
    rw [List.mem_reverse] at member
    simpa using fun same : d = c => absent (same ▸ member)
  simp only [beforeLast, other]

theorem rdropWhile_of_notMem {c : Char} {text : List Char} (absent : c ∉ text)
    : text.rdropWhile (· = c) = text := by
  rw [List.rdropWhile_eq_self_iff]
  intro nonempty last
  exact absent (of_decide_eq_true last ▸ List.getLast_mem nonempty)

theorem notMem_padded {c : Char} (other : c.isDigit = false) (width n : Nat)
    : c ∉ padded width n := by
  intro member
  rw [isDigit_of_mem_padded member] at other
  cases other

theorem isDigit_iff {c : Char} : c.isDigit = true ↔ 48 ≤ c.toNat ∧ c.toNat ≤ 57 := by
  simp only [Char.isDigit, Bool.and_eq_true, decide_eq_true_eq, ge_iff_le,
    UInt32.le_iff_toNat_le]
  rfl

theorem toNat_of_isDigit {c : Char} (digit : c.isDigit = true) : c.toNat < 128 := by
  have := isDigit_iff.mp digit
  omega

theorem isWhitespace_of_isDigit {c : Char} (digit : c.isDigit = true) : isWhitespace c = false := by
  have := isDigit_iff.mp digit
  simp only [isWhitespace, Bool.or_eq_false_iff, Bool.and_eq_false_iff, decide_eq_false_iff_not,
    beq_eq_false_iff_ne]
  omega

namespace Timestamp

variable {stamp : Timestamp}

theorem notMem_secondText (proper : stamp.Proper) {c : Char} (other : c.isDigit = false)
    (noPoint : c ≠ '.')
    : c ∉ stamp.secondText := by
  have digits := notMem_padded other 2 stamp.second
  cases shape : stamp.fraction with
  | none => simpa [secondText, shape, List.intercalate] using digits
  | some fraction =>
      have clean : c ∉ fraction := by
        intro member
        rw [(proper.fraction fraction shape).2 c member] at other
        cases other
      simp [secondText, shape, List.intercalate, digits, clean, noPoint]

theorem notMem_dateText {c : Char} (other : c.isDigit = false) (noDash : c ≠ '-')
    : c ∉ stamp.dateText := by
  simp [dateText, List.intercalate, notMem_padded other, noDash]

theorem notMem_timeText (proper : stamp.Proper) {c : Char} (other : c.isDigit = false)
    (noPoint : c ≠ '.') (noColon : c ≠ ':')
    : c ∉ stamp.timeText := by
  simp [timeText, List.intercalate, notMem_padded other, noColon,
    notMem_secondText proper other noPoint]

theorem notMem_localText (proper : stamp.Proper) {c : Char} (other : c.isDigit = false)
    (noMark : c ∉ ['-', 'T', '.', ':'])
    : c ∉ stamp.localText := by
  simp only [List.mem_cons, List.not_mem_nil, or_false, not_or] at noMark
  obtain ⟨noDash, noLetter, noPoint, noColon⟩ := noMark
  simp [localText, notMem_dateText other noDash, noLetter,
    notMem_timeText proper other noPoint noColon]

theorem splitOn_dateText
    : stamp.dateText.splitOn '-' = [padded 4 stamp.year, padded 2 stamp.month, padded 2 stamp.day] := by
  refine List.splitOn_intercalate '-' ?_ (by simp)
  intro part member
  simp only [List.mem_cons, List.not_mem_nil, or_false] at member
  rcases member with rfl | rfl | rfl <;> exact notMem_padded (by decide) _ _

theorem splitOn_timeText (proper : stamp.Proper)
    : stamp.timeText.splitOn ':'
      = [padded 2 stamp.hour, padded 2 stamp.minute, stamp.secondText] := by
  refine List.splitOn_intercalate ':' ?_ (by simp)
  intro part member
  simp only [List.mem_cons, List.not_mem_nil, or_false] at member
  rcases member with rfl | rfl | rfl
  · exact notMem_padded (by decide) _ _
  · exact notMem_padded (by decide) _ _
  · exact notMem_secondText proper (by decide) (by decide)

theorem splitOn_secondText (proper : stamp.Proper)
    : (stamp.secondText.splitOn '.').head? = some (padded 2 stamp.second) := by
  rw [secondText, List.splitOn_intercalate '.' ?_ (by simp)]
  · rfl
  · intro part member
    rcases List.mem_cons.mp member with rfl | fraction
    · exact notMem_padded (by decide) _ _
    · intro point
      have digit := (proper.fraction part (by simpa using fraction)).2 '.' point
      exact absurd digit (by decide)

theorem splitOnce_localText
    : splitOnce ['T'] stamp.localText = some (stamp.dateText, stamp.timeText) := by
  refine (splitOnce_append List.not_mem_nil).mpr ?_
  intro inside
  exact notMem_dateText (by decide) (by decide) (inside.subset (List.mem_singleton_self 'T'))

/-- The fields are read as they are written. -/
theorem parseLocal_localText (proper : stamp.Proper)
    : parseLocal stamp.localText
      = if stamp.year < 2 ^ 31 ∧ 1 ≤ stamp.day ∧ stamp.day ≤ 31 then
          some (ymdhmsToEpoch
            ⟨stamp.year, stamp.month, stamp.day, stamp.hour, stamp.minute, stamp.second⟩)
        else none := by
  have ⟨monthPos, monthLe, hour, minute, second, _, _⟩ := proper
  simp only [parseLocal, splitOnce_localText, splitOn_dateText, splitOn_timeText proper,
    Option.bind_eq_bind, Option.bind_some, List.getElem?_cons_zero, List.getElem?_cons_succ,
    splitOn_secondText proper, signed_padded, unsigned_padded]
  by_cases year : stamp.year < 2 ^ 31
  · by_cases day : stamp.day < 2 ^ 32
    · simp only [year, day, if_pos (show stamp.month < 2 ^ 32 by omega),
        if_pos (show stamp.hour < 2 ^ 32 by omega), if_pos (show stamp.minute < 2 ^ 32 by omega),
        if_pos (show stamp.second < 2 ^ 32 by omega), Option.bind_some, if_true, true_and]
      by_cases inMonth : 1 ≤ stamp.day ∧ stamp.day ≤ 31
      · rw [if_pos inMonth, if_neg]
        simp [monthPos, monthLe, inMonth.1, inMonth.2]
        omega
      · rw [if_neg inMonth, if_pos]
        simp only [Bool.or_eq_true, Bool.not_eq_true', Bool.and_eq_false_iff,
          decide_eq_false_iff_not, decide_eq_true_eq]
        omega
    · rw [if_neg (show ¬ (stamp.year < 2 ^ 31 ∧ 1 ≤ stamp.day ∧ stamp.day ≤ 31) by omega),
        if_pos year, if_pos (show stamp.month < 2 ^ 32 by omega), if_neg day]
      rfl
  · rw [if_neg (show ¬ (stamp.year < 2 ^ 31 ∧ 1 ≤ stamp.day ∧ stamp.day ≤ 31) by omega),
      if_neg year]
    rfl

/-! ## The zone -/

theorem nineteen_le_localText : 19 ≤ stamp.localText.length := by
  have atLeast : ∀ width n, width ≤ (padded width n).length := by
    intro width n
    rw [padded, List.length_append, List.length_replicate]
    omega
  have year := atLeast 4 stamp.year
  have month := atLeast 2 stamp.month
  have day := atLeast 2 stamp.day
  have hour := atLeast 2 stamp.hour
  have minute := atLeast 2 stamp.minute
  have second := atLeast 2 stamp.second
  have seconds : 2 ≤ stamp.secondText.length := by
    cases shape : stamp.fraction with
    | none => simpa [secondText, shape, List.intercalate] using second
    | some fraction =>
        simp only [secondText, shape, Option.toList_some, List.intercalate, List.intersperse,
          List.flatten_cons, List.length_append]
        omega
  simp only [localText, dateText, timeText, List.intercalate, List.intersperse, List.flatten_cons,
    List.flatten_nil, List.length_append, List.length_cons, List.length_nil]
  omega

theorem length_le_textLen (text : List Char) : text.length ≤ textLen (String.ofList text) := by
  rw [textLen, Store.textBytes, String.toList_ofList]
  induction text with
  | nil => simp
  | cons c rest ih =>
      have size : 1 ≤ (String.utf8EncodeChar c).length := by
        rw [String.length_utf8EncodeChar]
        exact c.utf8Size_pos
      rw [List.flatMap_cons, List.length_append, List.length_cons]
      omega

theorem notMem_offset {c : Char} (other : c.isDigit = false) (noColon : c ≠ ':') (hours minutes : Nat)
    : c ∉ [':'].intercalate [padded 2 hours, padded 2 minutes] := by
  simp [List.intercalate, notMem_padded other, noColon]

/-- An offset is taken off whole. -/
theorem stripOffset_offset (proper : stamp.Proper) (west : Bool) (hours minutes : Nat)
    : stripOffset ((stamp.localText ++ (Zone.offset west hours minutes).text).rdropWhile (· = 'Z'))
      = stamp.localText := by
  have long : 19 ≤ stamp.localText.length := nineteen_le_localText
  have bytes := length_le_textLen stamp.localText
  have noZ : 'Z' ∉ stamp.localText := notMem_localText proper (by decide) (by decide)
  have noPlus : '+' ∉ stamp.localText := notMem_localText proper (by decide) (by decide)
  have noZ' : 'Z' ∉ stamp.localText ++ (Zone.offset west hours minutes).text := by
    have tail := notMem_offset (c := 'Z') (by decide) (by decide) hours minutes
    cases west <;> simp only [Zone.text, List.mem_append, List.mem_cons, not_or] <;>
      exact ⟨noZ, by decide, tail⟩
  rw [rdropWhile_of_notMem noZ', stripOffset]
  cases west with
  | true =>
      have noPlus' : '+' ∉ stamp.localText ++ (Zone.offset true hours minutes).text := by
        have tail := notMem_offset (c := '+') (by decide) (by decide) hours minutes
        simp only [Zone.text, List.mem_append, List.mem_cons, not_or]
        exact ⟨noPlus, by decide, tail⟩
      rw [beforeLast_eq_none noPlus']
      simp only [Zone.text]
      rw [beforeLast_append _ (notMem_offset (by decide) (by decide) hours minutes)]
      exact if_pos (by omega)
  | false =>
      simp only [Zone.text]
      rw [beforeLast_append _ (notMem_offset (by decide) (by decide) hours minutes)]
      exact if_pos (by omega)

/-- Without an offset nothing is taken off, unless the year is so long that the dash behind the month
looks like one; then there is no time left to read.
-/
theorem parseLocal_stripOffset (proper : stamp.Proper)
    : parseLocal (stripOffset stamp.localText) = parseLocal stamp.localText := by
  have noPlus : '+' ∉ stamp.localText := notMem_localText proper (by decide) (by decide)
  have noDash : '-' ∉ padded 2 stamp.day ++ 'T' :: stamp.timeText := by
    simp [notMem_padded, notMem_timeText proper (c := '-')]
  have shape : stamp.localText = (padded 4 stamp.year ++ '-' :: padded 2 stamp.month)
      ++ '-' :: (padded 2 stamp.day ++ 'T' :: stamp.timeText) := by
    simp [localText, dateText, List.intercalate]
  rw [stripOffset, beforeLast_eq_none noPlus]
  simp only
  rw [shape, beforeLast_append _ noDash, ← shape]
  simp only
  split_ifs with long
  · -- so long a number is not a year
    have late : ¬ stamp.year < 2 ^ 31 := by
      intro small
      have digits : (Nat.toDigits 10 stamp.year).length ≤ 10 :=
        (Nat.length_toDigits_le_iff (by omega) (by omega)).mpr (by omega)
      have month : (Nat.toDigits 10 stamp.month).length ≤ 2 :=
        (Nat.length_toDigits_le_iff (by omega) (by omega)).mpr (by have := proper.month_le; omega)
      rw [textLen_of_ascii, String.length_ofList] at long
      · simp only [padded, List.length_append, List.length_cons, List.length_replicate] at long
        omega
      · intro c member
        rw [String.toList_ofList, List.mem_append, List.mem_cons] at member
        rcases member with digit | rfl | digit
        · exact toNat_of_isDigit (isDigit_of_mem_padded digit)
        · decide
        · exact toNat_of_isDigit (isDigit_of_mem_padded digit)
    have noTime : splitOnce ['T'] (padded 4 stamp.year ++ '-' :: padded 2 stamp.month) = none := by
      rw [splitOnce_eq_none (by simp), List.singleton_infix_iff]
      simp [notMem_padded]
    have nothing : parseLocal (padded 4 stamp.year ++ '-' :: padded 2 stamp.month) = none := by
      rw [parseLocal, noTime]
      rfl
    rw [nothing, parseLocal_localText proper]
    exact (if_neg fun all => late all.1).symm
  · rfl

theorem notMem_zone {c : Char} (other : c.isDigit = false) (noMark : c ∉ ['-', ':', 'Z', '+'])
    (zone : Zone)
    : c ∉ zone.text := by
  simp only [List.mem_cons, List.not_mem_nil, or_false, not_or] at noMark
  obtain ⟨noDash, noColon, noZ, noPlus⟩ := noMark
  cases zone with
  | absent => exact List.not_mem_nil
  | utc => simpa [Zone.text] using noZ
  | offset west hours minutes =>
      have tail := notMem_offset other noColon hours minutes
      cases west with
      | true => exact List.not_mem_cons_of_ne_of_not_mem noDash tail
      | false => exact List.not_mem_cons_of_ne_of_not_mem noPlus tail

/-- There is no white space in a timestamp. -/
theorem isWhitespace_of_mem_text (proper : stamp.Proper) {c : Char} (member : c ∈ stamp.text.toList)
    : isWhitespace c = false := by
  by_contra blank
  rw [Bool.not_eq_false] at blank
  have marks : ['-', 'T', '.', ':', 'Z', '+'].all (fun d => !isWhitespace d) = true := by decide
  have noMark : c ∉ ['-', 'T', '.', ':', 'Z', '+'] := by
    intro mark
    have visible := List.all_eq_true.mp marks c mark
    simp [blank] at visible
  have other : c.isDigit = false := by
    rw [← Bool.not_eq_true]
    intro digit
    simp [isWhitespace_of_isDigit digit] at blank
  rw [text, String.toList_ofList, List.mem_append] at member
  rcases member with inLocal | inZone
  · exact notMem_localText proper other (by simp_all) inLocal
  · exact notMem_zone other (by simp_all) _ inZone

/-- A timestamp is read by its date and time, whatever its zone. -/
theorem parseIso8601_text (proper : stamp.Proper)
    : parseIso8601 stamp.text
      = if stamp.year < 2 ^ 31 ∧ 1 ≤ stamp.day ∧ stamp.day ≤ 31 then
          some (ymdhmsToEpoch
            ⟨stamp.year, stamp.month, stamp.day, stamp.hour, stamp.minute, stamp.second⟩)
        else none := by
  have trimmed : trim stamp.text = stamp.text :=
    trim_eq_self (fun c head => isWhitespace_of_mem_text proper (List.mem_of_mem_head? head))
      fun c last => isWhitespace_of_mem_text proper (List.mem_of_mem_getLast? last)
  have dash : '-' ∈ stamp.text.toList := by
    simp [text, localText, dateText, List.intercalate]
  have notNumber : unsigned (2 ^ 64) stamp.text.toList = none := by
    obtain ⟨first, rest, year, digit⟩ := exists_cons_padded 4 stamp.year
    have mixed := number_eq_none dash (by decide)
    obtain ⟨more, shape⟩ : ∃ more, stamp.text.toList = first :: more := by
      simp [text, localText, dateText, List.intercalate, year]
    rw [shape] at mixed ⊢
    rw [unsigned_of_digit digit, mixed]
    rfl
  rw [← parseLocal_localText proper]
  delta parseIso8601
  simp only [trimmed, notNumber]
  simp only [text, String.toList_ofList]
  cases zone : stamp.zone with
  | absent =>
      rw [Zone.text, List.append_nil,
        rdropWhile_of_notMem (notMem_localText proper (by decide) (by decide)),
        parseLocal_stripOffset proper]
  | utc =>
      rw [Zone.text, List.rdropWhile_concat_pos _ _ _ (by decide),
        rdropWhile_of_notMem (notMem_localText proper (by decide) (by decide)),
        parseLocal_stripOffset proper]
  | offset west hours minutes => rw [stripOffset_offset proper]

/-! ## Timestamps that are read as the instants they name -/

/-- A day that exists, from 1970 on, with no offset from UTC; or a day that exists in no month. Years
are 32-bit numbers.
-/
def Plain (stamp : Timestamp) : Prop :=
  DateExists stamp.year stamp.month stamp.day ∧ 1970 ≤ stamp.year ∧ stamp.year < 2 ^ 31
      ∧ stamp.zone.seconds = 0
    ∨ ¬ DateExists stamp.year stamp.month stamp.day
      ∧ (stamp.day = 0 ∨ 31 < stamp.day ∨ 2 ^ 31 ≤ stamp.year)

theorem day_le_of_exists (date : DateExists stamp.year stamp.month stamp.day)
    : 1 ≤ stamp.day ∧ stamp.day ≤ 31 := by
  have longest : monthLength stamp.year stamp.month ≤ 31 := by
    unfold monthLength
    split
    · split_ifs <;> norm_num
    all_goals norm_num
  have := date.day_pos
  have := date.day_le
  omega

/-- A year before 1970 is counted like 1970. -/
theorem ymdhmsToEpoch_before (proper : stamp.Proper)
    (date : DateExists stamp.year stamp.month stamp.day) (before : stamp.year < 1970)
    : (ymdhmsToEpoch ⟨stamp.year, stamp.month, stamp.day, stamp.hour, stamp.minute, stamp.second⟩
        : Int)
      = (monthStart stamp.year stamp.month + ((stamp.day : Int) - 1)) * 86400 + stamp.hour * 3600
        + stamp.minute * 60 + stamp.second := by
  have months := sum_take_monthDays stamp.year
    (show stamp.month - 1 ≤ 12 by have := proper.month_le; omega)
  rw [show stamp.month - 1 + 1 = stamp.month by have := proper.month_pos; omega] at months
  have number : daysFromEpoch stamp.year stamp.month stamp.day
      = monthStart stamp.year stamp.month + ((stamp.day : Int) - 1) := by
    have none : ((stamp.year : Int) - 1970).toNat = 0 := by omega
    simp only [daysFromEpoch, none, List.range_zero, List.map_nil, List.sum_nil, months]
    push_cast
    ring
  have inYear := date.in_year
  have long : yearLength stamp.year ≤ 366 := by
    unfold yearLength
    split_ifs <;> omega
  obtain ⟨-, -, hour, minute, second, -, -⟩ := proper
  simp only [ymdhmsToEpoch, number]
  generalize monthStart stamp.year stamp.month + ((stamp.day : Int) - 1) = d at *
  omega

end Timestamp

open Timestamp in
/-- A timestamp is read as the instant it names, or refused if it names none, exactly if it is
plain.
-/
theorem parseIso8601_eq_instant_iff (stamp : Timestamp) (proper : stamp.Proper)
    : parseIso8601 stamp.text = stamp.instant ↔ stamp.Plain := by
  rw [parseIso8601_text proper, instant, Plain]
  by_cases date : DateExists stamp.year stamp.month stamp.day
  · have inMonth := day_le_of_exists date
    have bounds := proper.zone
    have whole := date.in_year
    rw [if_pos date]
    simp only [date, true_and, not_true, false_and, or_false, inMonth, and_true]
    by_cases fits : stamp.year < 2 ^ 31
    · rw [if_pos fits]
      by_cases since : 1970 ≤ stamp.year
      · -- the seconds that are read are those of the clock in the zone
        have occurs : (Ymdhms.mk stamp.year stamp.month stamp.day stamp.hour stamp.minute
            stamp.second).Occurs := ⟨date, proper.hour, proper.minute, proper.second⟩
        have value := (ymdhmsToEpoch_eq occurs (by simpa using since) (by simpa using fits)).1
        simp only at value
        split_ifs with later
        · rw [Option.some.injEq]
          omega
        · simp only [false_iff]
          omega
      · have value := ymdhmsToEpoch_before proper date (by omega)
        have earlier : dayNumber stamp.year stamp.month stamp.day ≤ -1 := by
          have apart := yearStart_apart stamp.year 1970 (by omega)
          rw [show yearStart 1970 = 0 by decide] at apart
          rw [dayNumber]
          omega
        split_ifs with later
        · rw [Option.some.injEq]
          omega
        · simp only [false_iff]
          omega
    · -- a year that is no 32-bit number, and no offset makes its instant early
      have late : 0 ≤ dayNumber stamp.year stamp.month stamp.day - 1 := by
        have apart := yearStart_apart 1971 stamp.year (by omega)
        rw [show yearStart 1971 = 365 by decide] at apart
        have := yearLength_pos 1971
        rw [dayNumber]
        omega
      have := proper.hour
      rw [if_neg fits, if_pos (by omega)]
      simp only [reduceCtorEq, false_iff]
      omega
  · rw [if_neg date]
    simp only [date, false_and, false_or, not_false_eq_true, true_and]
    split_ifs with read
    · simp only [false_iff]
      omega
    · simp only [true_iff]
      omega

/-- An offset of two hours that is not counted. -/
theorem offset_not_counted
    : parseIso8601 "2024-03-10T12:00:00+02:00" = some 1710072000
      ∧ (Timestamp.mk 2024 3 10 12 0 0 none (.offset false 2 0)).text = "2024-03-10T12:00:00+02:00"
      ∧ (Timestamp.mk 2024 3 10 12 0 0 none (.offset false 2 0)).instant = some 1710064800
      ∧ parseIso8601 "2023-02-30T00:00:00Z" = some 1677715200
      ∧ (Timestamp.mk 2023 2 30 0 0 0 none .utc).instant = none := by
  decide +kernel

/-- Witness: the same day in UTC. -/
theorem utc_counted
    : parseIso8601 (Timestamp.mk 2024 3 10 12 0 0 (some ['5']) .utc).text
      = (Timestamp.mk 2024 3 10 12 0 0 (some ['5']) .utc).instant := by
  refine (parseIso8601_eq_instant_iff _ ?_).mpr (.inl (by decide +kernel))
  refine ⟨by decide, by decide, by decide, by decide, by decide, ?_, by decide⟩
  rintro digits ⟨⟩
  exact ⟨by decide, by simp⟩

end BeetleMemory.Util

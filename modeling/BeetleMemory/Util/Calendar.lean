import BeetleMemory.Lib.Gregorian

/-! Unix seconds and dates: the conversions count days over years and months, one upwards in loops,
one by sums, and they are inverse to each other.
-/

namespace BeetleMemory.Util

open Gregorian

/-! ## Conversions -/

def isLeapYear (y : Int) : Bool :=
  (y % 4 == 0 && y % 100 != 0) || y % 400 == 0

def daysInYear (y : Int) : Nat :=
  if isLeapYear y then 366 else 365

def monthDaysTable : List Nat :=
  [31, 28, 31, 30, 31, 30, 31, 31, 30, 31, 30, 31]

def monthDays (year : Int) : List Nat :=
  if isLeapYear year then monthDaysTable.set 1 29 else monthDaysTable

/-- A date and time: the year, the month from 1, the day from 1, the hour, minute and second. -/
@[ext]
structure Ymdhms where
  year : Int
  month : Nat
  day : Nat
  hour : Nat
  min : Nat
  sec : Nat
deriving DecidableEq, Repr

def daysFromEpoch (year : Int) (month day : Nat) : Int :=
  let years := ((List.range (year - 1970).toNat).map fun k : Nat => daysInYear (1970 + (k : Int))).sum
  let months := ((monthDays year).take (month - 1)).sum
  years + months + day - 1

/-- The seconds of a date in 64-bit arithmetic. -/
def ymdhmsToEpoch (date : Ymdhms) : Nat :=
  let d := daysFromEpoch date.year date.month date.day
  ((d % 2 ^ 64).toNat * 86400 + date.hour * 3600 + date.min * 60 + date.sec) % 2 ^ 64

theorem daysInYear_pos (y : Int) : 0 < daysInYear y := by
  unfold daysInYear
  split_ifs <;> omega

/-- Whole years are taken off from the days. -/
def yearLoop (year : Int) (d : Nat) : Int × Nat :=
  if daysInYear year ≤ d then yearLoop (year + 1) (d - daysInYear year) else (year, d)
termination_by d
decreasing_by
  have := daysInYear_pos year
  omega

/-- Whole months are counted, with their days. -/
def monthLoop (dayOfYear : Nat) : List Nat → Nat → Nat → Nat × Nat
  | [], m, acc => (m, acc)
  | days :: rest, m, acc =>
      if acc + days ≤ dayOfYear then monthLoop dayOfYear rest (m + 1) (acc + days) else (m, acc)

def epochToYmdhms (secs : Nat) : Ymdhms :=
  let (year, dayOfYear) := yearLoop 1970 (secs / 60 / 60 / 24)
  let (m, acc) := monthLoop dayOfYear (monthDays year) 0 0
  { year := year
    month := m + 1
    day := dayOfYear - acc + 1
    hour := secs / 60 / 60 % 24
    min := secs / 60 % 60
    sec := secs % 60 }

/-! ## The days of a date -/

theorem isLeapYear_iff (y : Int) : isLeapYear y = true ↔ IsLeap y := by
  simp only [isLeapYear, IsLeap, Bool.or_eq_true, Bool.and_eq_true, beq_iff_eq, bne_iff_ne]
  omega

theorem daysInYear_eq (y : Int) : (daysInYear y : Int) = yearLength y := by
  unfold daysInYear yearLength
  by_cases leap : IsLeap y
  · rw [if_pos ((isLeapYear_iff y).mpr leap), if_pos leap]
    rfl
  · rw [if_neg (mt (isLeapYear_iff y).mp leap), if_neg leap]
    rfl

theorem length_monthDays (year : Int) : (monthDays year).length = 12 := by
  unfold monthDays
  split_ifs <;> rfl

theorem sum_take_monthDays (year : Int) {n : Nat} (small : n ≤ 12)
    : (((monthDays year).take n).sum : Int) = monthStart year (n + 1) := by
  have step : ∀ k < 12, ((monthDays year).getD k 0 : Int) = monthLength year (k + 1) := by
    intro k inYear
    unfold monthDays
    by_cases leap : IsLeap year
    · rw [if_pos ((isLeapYear_iff year).mpr leap)]
      interval_cases k <;> simp [monthLength, leap, monthDaysTable]
    · rw [if_neg (mt (isLeapYear_iff year).mp leap)]
      interval_cases k <;> simp [monthLength, leap, monthDaysTable]
  induction n with
  | zero => rfl
  | succ n ih =>
      have here : n < (monthDays year).length := by
        rw [length_monthDays]
        omega
      have value := step n (by omega)
      rw [List.getD_eq_getElem _ _ here] at value
      rw [List.take_add_one, List.getElem?_eq_getElem here, List.sum_append,
        monthStart_succ year (by omega), ← ih (by omega), ← value]
      simp

theorem sum_years (n : Nat)
    : ((((List.range n).map fun k : Nat => daysInYear (1970 + (k : Int))).sum : Nat) : Int)
      = yearStart (1970 + n) := by
  induction n with
  | zero => decide
  | succ n ih =>
      rw [List.range_succ, List.map_append, List.sum_append, Nat.cast_add, ih, Nat.cast_add,
        Nat.cast_one, ← add_assoc, yearStart_succ, ← daysInYear_eq]
      simp

theorem daysFromEpoch_eq {year : Int} (since : 1970 ≤ year) {month : Nat} (monthPos : 1 ≤ month)
    (monthLe : month ≤ 12) (day : Nat)
    : daysFromEpoch year month day = dayNumber year month day := by
  have years := sum_years (year - 1970).toNat
  have months := sum_take_monthDays year (show month - 1 ≤ 12 by omega)
  rw [show (1970 : Int) + (year - 1970).toNat = year by omega] at years
  rw [show month - 1 + 1 = month by omega] at months
  rw [daysFromEpoch, dayNumber, years, months]
  ring

/-! ## The date of a day -/

theorem yearLoop_spec (year : Int) (d : Nat)
    : year ≤ (yearLoop year d).1 ∧ ((yearLoop year d).2 : Int) < yearLength (yearLoop year d).1
      ∧ yearStart year + d = yearStart (yearLoop year d).1 + (yearLoop year d).2 := by
  fun_induction yearLoop year d with
  | case1 year d long ih =>
      obtain ⟨later, inside, position⟩ := ih
      refine ⟨by omega, inside, ?_⟩
      rw [← position, yearStart_succ, ← daysInYear_eq]
      omega
  | case2 year d short =>
      refine ⟨le_refl _, ?_, rfl⟩
      have length := daysInYear_eq year
      dsimp only
      omega

/-- The loop stops in front of the month in which the day is, or after all of them. -/
theorem monthLoop_spec (dayOfYear : Nat) (lengths : List Nat) (m acc : Nat) (reached : acc ≤ dayOfYear)
    : ∃ n ≤ lengths.length, monthLoop dayOfYear lengths m acc = (m + n, acc + (lengths.take n).sum)
      ∧ acc + (lengths.take n).sum ≤ dayOfYear
      ∧ (n < lengths.length → dayOfYear < acc + (lengths.take (n + 1)).sum) := by
  induction lengths generalizing m acc with
  | nil => exact ⟨0, le_refl _, rfl, reached, by simp⟩
  | cons days rest ih =>
      by_cases long : acc + days ≤ dayOfYear
      · obtain ⟨n, bound, result, before, after⟩ := ih (m + 1) (acc + days) long
        refine ⟨n + 1, by simpa using bound, ?_, ?_, ?_⟩
        · rw [monthLoop, if_pos long, result, List.take_succ_cons, List.sum_cons]
          congr 1 <;> omega
        · rw [List.take_succ_cons, List.sum_cons]
          omega
        · intro more
          have := after (by simpa using more)
          rw [List.take_succ_cons, List.sum_cons]
          omega
      · refine ⟨0, by simp, by rw [monthLoop, if_neg long]; simp, by simpa using reached, ?_⟩
        intro _
        simpa using Nat.lt_of_not_le long

/-- A date and a time that there are. -/
structure Ymdhms.Occurs (moment : Ymdhms) : Prop where
  date : DateExists moment.year moment.month moment.day
  hour : moment.hour < 24
  min : moment.min < 60
  sec : moment.sec < 60

theorem epochToYmdhms_spec (secs : Nat)
    : (epochToYmdhms secs).Occurs ∧ 1970 ≤ (epochToYmdhms secs).year
      ∧ dayNumber (epochToYmdhms secs).year (epochToYmdhms secs).month (epochToYmdhms secs).day
        = (secs / 60 / 60 / 24 : Nat) := by
  obtain ⟨since, inYear, position⟩ := yearLoop_spec 1970 (secs / 60 / 60 / 24)
  rw [show yearStart 1970 = 0 by decide, zero_add] at position
  rw [epochToYmdhms]
  generalize yearLoop 1970 (secs / 60 / 60 / 24) = found at *
  obtain ⟨year, dayOfYear⟩ := found
  dsimp only at since inYear position
  obtain ⟨n, bound, result, before, after⟩ := monthLoop_spec dayOfYear (monthDays year) 0 0 (by omega)
  rw [length_monthDays] at bound after
  have start := sum_take_monthDays year bound
  have notLast : n ≠ 12 := by
    rintro rfl
    rw [monthStart_end] at start
    omega
  have later := after (by omega)
  have next := sum_take_monthDays year (show n + 1 ≤ 12 by omega)
  rw [monthStart_succ year (by omega)] at next
  simp only [result, zero_add] at before later ⊢
  have lengthPos := monthLength_pos year (n + 1)
  refine ⟨⟨⟨Nat.le_add_left 1 n, by dsimp only; omega, Nat.le_add_left 1 _, ?_⟩,
    Nat.mod_lt _ (by omega), Nat.mod_lt _ (by omega), Nat.mod_lt _ (by omega)⟩, since, ?_⟩
  · dsimp only
    omega
  · rw [dayNumber, position]
    omega

/-! ## Both ways -/

/-- No sum passes the greatest number as long as the year is a 32-bit number. -/
theorem ymdhmsToEpoch_eq {date : Ymdhms} (occurs : date.Occurs) (since : 1970 ≤ date.year)
    (fits : date.year < 2 ^ 31)
    : (ymdhmsToEpoch date : Int)
      = dayNumber date.year date.month date.day * 86400 + date.hour * 3600 + date.min * 60
        + date.sec
      ∧ 0 ≤ dayNumber date.year date.month date.day := by
  obtain ⟨day, hour, min, sec⟩ := occurs
  have number := daysFromEpoch_eq since day.month_pos day.month_le date.day
  have inYear := day.in_year
  have first : 0 ≤ yearStart date.year := by
    unfold yearStart
    omega
  have last : yearStart date.year < 2 ^ 40 := by
    unfold yearStart
    omega
  have long : yearLength date.year ≤ 366 := by
    unfold yearLength
    split_ifs <;> omega
  have bounds : 0 ≤ dayNumber date.year date.month date.day
      ∧ dayNumber date.year date.month date.day < 2 ^ 40 + 366 := by
    unfold dayNumber
    omega
  refine ⟨?_, bounds.1⟩
  rw [ymdhmsToEpoch, number]
  generalize dayNumber date.year date.month date.day = d at *
  omega

/-- The fields of a date from the greatest to the smallest. -/
def Ymdhms.fields (date : Ymdhms) : List Int :=
  [date.year, date.month, date.day, date.hour, date.min, date.sec]

theorem ymdhms_of_epoch (secs : Nat) (fits : (epochToYmdhms secs).year < 2 ^ 31)
    : ymdhmsToEpoch (epochToYmdhms secs) = secs := by
  obtain ⟨occurs, since, number⟩ := epochToYmdhms_spec secs
  obtain ⟨value, -⟩ := ymdhmsToEpoch_eq occurs since fits
  rw [number] at value
  have hour : (epochToYmdhms secs).hour = secs / 60 / 60 % 24 := rfl
  have min : (epochToYmdhms secs).min = secs / 60 % 60 := rfl
  have sec : (epochToYmdhms secs).sec = secs % 60 := rfl
  rw [hour, min, sec] at value
  omega

theorem epoch_of_ymdhms {date : Ymdhms} (occurs : date.Occurs) (since : 1970 ≤ date.year)
    (fits : date.year < 2 ^ 31)
    : epochToYmdhms (ymdhmsToEpoch date) = date := by
  obtain ⟨value, nonneg⟩ := ymdhmsToEpoch_eq occurs since fits
  obtain ⟨found, -, number⟩ := epochToYmdhms_spec (ymdhmsToEpoch date)
  obtain ⟨day, hour, min, sec⟩ := occurs
  have same : dayNumber (epochToYmdhms (ymdhmsToEpoch date)).year
      (epochToYmdhms (ymdhmsToEpoch date)).month (epochToYmdhms (ymdhmsToEpoch date)).day
        = dayNumber date.year date.month date.day := by
    rw [number]
    omega
  obtain ⟨sameYear, sameMonth, sameDay⟩ := dayNumber_inj found.date day same
  have sameHour : (epochToYmdhms (ymdhmsToEpoch date)).hour = date.hour := by
    change ymdhmsToEpoch date / 60 / 60 % 24 = date.hour
    omega
  have sameMin : (epochToYmdhms (ymdhmsToEpoch date)).min = date.min := by
    change ymdhmsToEpoch date / 60 % 60 = date.min
    omega
  have sameSec : (epochToYmdhms (ymdhmsToEpoch date)).sec = date.sec := by
    change ymdhmsToEpoch date % 60 = date.sec
    omega
  exact Ymdhms.ext sameYear sameMonth sameDay sameHour sameMin sameSec

theorem fields_lt_iff {a b : Ymdhms} (first : a.Occurs) (second : b.Occurs)
    : a.fields < b.fields
      ↔ dayNumber a.year a.month a.day * 86400 + a.hour * 3600 + a.min * 60 + a.sec
        < dayNumber b.year b.month b.day * 86400 + b.hour * 3600 + b.min * 60 + b.sec := by
  have days := dayNumber_lt_iff first.date second.date
  have sameDay := dayNumber_inj first.date second.date
  obtain ⟨-, hour, min, sec⟩ := first
  obtain ⟨-, hour', min', sec'⟩ := second
  simp only [Ymdhms.fields, List.cons_lt_cons_iff, List.not_lt_nil, and_false, or_false,
    Nat.cast_lt, Nat.cast_inj]
  constructor
  · intro below
    by_cases same : a.year = b.year ∧ a.month = b.month ∧ a.day = b.day
    · rw [same.1, same.2.1, same.2.2]
      omega
    · have := days.mpr (by omega)
      omega
  · intro below
    rcases lt_trichotomy (dayNumber a.year a.month a.day) (dayNumber b.year b.month b.day)
      with earlier | same | later
    · have := days.mp earlier
      omega
    · have := sameDay same
      omega
    · omega

/-- Every second of a year that fits has one date and time, every date and time has one second, and
later seconds have later dates.
-/
theorem calendar_bijective
    : (∀ secs, (epochToYmdhms secs).year < 2 ^ 31
        → (epochToYmdhms secs).Occurs ∧ 1970 ≤ (epochToYmdhms secs).year
          ∧ ymdhmsToEpoch (epochToYmdhms secs) = secs)
      ∧ (∀ date : Ymdhms, date.Occurs → 1970 ≤ date.year → date.year < 2 ^ 31
        → epochToYmdhms (ymdhmsToEpoch date) = date)
      ∧ ∀ earlier later, (epochToYmdhms earlier).year < 2 ^ 31
        → (epochToYmdhms later).year < 2 ^ 31
        → (earlier < later ↔ (epochToYmdhms earlier).fields < (epochToYmdhms later).fields) := by
  refine ⟨?_, fun date => epoch_of_ymdhms, ?_⟩
  · intro secs fits
    obtain ⟨occurs, since, -⟩ := epochToYmdhms_spec secs
    exact ⟨occurs, since, ymdhms_of_epoch secs fits⟩
  · intro earlier later fits fits'
    obtain ⟨occurs, since, -⟩ := epochToYmdhms_spec earlier
    obtain ⟨occurs', since', -⟩ := epochToYmdhms_spec later
    rw [fields_lt_iff occurs occurs', ← (ymdhmsToEpoch_eq occurs since fits).1,
      ← (ymdhmsToEpoch_eq occurs' since' fits').1, ymdhms_of_epoch earlier fits,
      ymdhms_of_epoch later fits', Nat.cast_lt]

/-- Witness: the last second of a leap day. -/
theorem leap_day_survives
    : epochToYmdhms (ymdhmsToEpoch ⟨1972, 2, 29, 23, 59, 59⟩) = ⟨1972, 2, 29, 23, 59, 59⟩ :=
  calendar_bijective.2.1 ⟨1972, 2, 29, 23, 59, 59⟩
    ⟨⟨by decide, by decide, by decide, by decide⟩, by decide, by decide, by decide⟩
    (by decide) (by decide)

end BeetleMemory.Util

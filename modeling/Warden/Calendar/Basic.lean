/-! # Dates and times

Dates of the proleptic Gregorian calendar in the years 1 to 9999, times of day to the microsecond,
and instants: a date and a time with or without a distance from universal time.

* **`Date.dayNumber`** counts the days from the first day of year 1, **`Date.ofDayNumber?`** is the
  way back.
* **`DateTime.instant?`** places an instant with a known offset on one universal line.
* **`DateTime.addMonths?`** and **`DateTime.addSeconds?`** move an instant: by months the day of the
  month is kept or, in a shorter month, the last one is taken.
-/

namespace Warden

/-! ## The calendar -/

/-- The year has a 29th of February. -/
def isLeap (year : Int) : Bool :=
  year % 4 == 0 && (year % 100 != 0 || year % 400 == 0)

/-- The days of a month. -/
def daysInMonth (year : Int) (month : Nat) : Nat :=
  match month with
  | 2 => if isLeap year then 29 else 28
  | 4 | 6 | 9 | 11 => 30
  | _ => 31

/-- A date. -/
structure Date where
  /-- The year, from 1 to 9999. -/
  year : Nat
  /-- The month, from 1 to 12. -/
  month : Nat
  /-- The day of the month, from 1. -/
  day : Nat
deriving DecidableEq

/-- A time of day. -/
structure Time where
  /-- The hour, from 0 to 23. -/
  hour : Nat
  /-- The minute. -/
  minute : Nat
  /-- The second. -/
  second : Nat
  /-- The microsecond. -/
  microsecond : Nat
deriving DecidableEq

/-- A date with a time of day. -/
structure DateTime where
  /-- The date. -/
  date : Date
  /-- The time of day. -/
  time : Time
  /-- The distance east of universal time in microseconds; absent for local times. -/
  offset : Option Int
deriving DecidableEq

namespace Date

/-- The date exists. -/
def valid (d : Date) : Bool :=
  1 ≤ d.year && d.year ≤ 9999 && 1 ≤ d.month && d.month ≤ 12 &&
    1 ≤ d.day && d.day ≤ daysInMonth d.year d.month

/-- The date of a year, month and day, if it exists. -/
def of? (year month day : Nat) : Option Date :=
  let d : Date := ⟨year, month, day⟩
  if d.valid then some d else none

/-- The days before the first of January. -/
def daysBeforeYear (year : Nat) : Nat :=
  let y := year - 1
  365 * y + y / 4 - y / 100 + y / 400

/-- The days of a year before the first of the month. -/
def daysBeforeMonth (year : Nat) : (month : Nat) → Nat
  | 0 | 1 => 0
  | month + 2 => daysBeforeMonth year (month + 1) + daysInMonth year (month + 1)

/-- The number of the day; the first of January of year 1 is day 1. -/
def dayNumber (d : Date) : Nat :=
  daysBeforeYear d.year + daysBeforeMonth d.year d.month + d.day

/-- The month and day of the `n`th day of a year, counted from zero, starting at `month`. -/
def splitYear (year : Nat) : (months month n : Nat) → Nat × Nat
  | 0, month, n => (month, n + 1)
  | months + 1, month, n =>
    let days := daysInMonth year month
    if n < days then (month, n + 1) else splitYear year months (month + 1) (n - days)

/-- The number of the last day of year 9999. -/
def lastDay : Nat := 3652059

/-- The date with the given day number, if it lies in the years 1 to 9999. -/
def ofDayNumber? (n : Int) : Option Date :=
  if n < 1 ∨ (lastDay : Int) < n then none
  else
    let k := n.toNat - 1
    let (centuries4, k) := (k / 146097, k % 146097)
    let (centuries, k) := (k / 36524, k % 36524)
    let (years4, k) := (k / 1461, k % 1461)
    let years := k / 365
    let year := 400 * centuries4 + 100 * centuries + 4 * years4 + years + 1
    if centuries = 4 ∨ years = 4 then some ⟨year - 1, 12, 31⟩
    else
      let (month, day) := splitYear year 11 1 (k % 365)
      some ⟨year, month, day⟩

/-- The day of the week, Monday being 0. -/
def weekday (d : Date) : Nat :=
  (d.dayNumber + 6) % 7

/-- The date of a day of an ISO week, whose first week holds the year's first Thursday. -/
def ofWeek? (year week day : Nat) : Option Date :=
  if year = 0 ∨ 9999 < year ∨ day = 0 ∨ 7 < day ∨ week = 0 then none
  else
    let newYear : Date := ⟨year, 1, 1⟩
    let long := newYear.weekday = 3 ∨ (newYear.weekday = 2 ∧ isLeap year)
    if 53 < week ∨ (week = 53 ∧ ¬ long) then none
    else
      let monday : Int := (newYear.dayNumber : Int) - newYear.weekday
      let monday := if 3 < newYear.weekday then monday + 7 else monday
      ofDayNumber? (monday + 7 * (week - 1) + (day - 1))

end Date

namespace Time

/-- The time exists. -/
def valid (t : Time) : Bool :=
  t.hour < 24 && t.minute < 60 && t.second < 60 && t.microsecond < 1000000

/-- The microseconds since midnight. -/
def microseconds (t : Time) : Nat :=
  ((t.hour * 60 + t.minute) * 60 + t.second) * 1000000 + t.microsecond

/-- The time that many microseconds after midnight. -/
def ofMicroseconds (n : Nat) : Time :=
  let seconds := n / 1000000
  ⟨seconds / 3600 % 24, seconds / 60 % 60, seconds % 60, n % 1000000⟩

end Time

namespace DateTime

/-- The microseconds of a day. -/
def dayLength : Nat := 86400000000

/-- The microseconds on the clock since the start of the calendar. -/
def clock (t : DateTime) : Int :=
  (t.date.dayNumber * dayLength + t.time.microseconds : Nat)

/-- The microseconds of universal time, if the offset is known. -/
def instant? (t : DateTime) : Option Int :=
  t.offset.map (t.clock - ·)

/-- Two times are the same moment. A local time is never the same as one with an offset. -/
def same (s t : DateTime) : Bool :=
  match s.instant?, t.instant? with
  | some a, some b => a == b
  | none, none => s.clock == t.clock
  | _, _ => false

/-- The order of two times, unless only one of them has an offset. -/
def compare? (s t : DateTime) : Option Ordering :=
  match s.instant?, t.instant? with
  | some a, some b => some (compare a b)
  | none, none => some (compare s.clock t.clock)
  | _, _ => none

/-! ## Moving in the calendar -/

/-- Why a moved time has no place in the calendar. -/
inductive ShiftError where
  /-- The year is not one of 1 to 9999. -/
  | year
  /-- The distance is beyond what the calendar can count. -/
  | distance
deriving DecidableEq

/-- Moves by months. The day of the month is kept, or cut to the last of a shorter month. -/
def addMonths? (t : DateTime) (months : Int) : Except ShiftError DateTime :=
  let total := (t.date.year * 12 + (t.date.month - 1) : Nat) + months
  let year := total.fdiv 12
  let month := (total.fmod 12).toNat + 1
  if 1 ≤ year ∧ year ≤ 9999 then
    .ok { t with date := ⟨year.toNat, month, min t.date.day (daysInMonth year month)⟩ }
  else if year < -2147483648 ∨ 2147483647 < year then .error .distance
  else .error .year

/-- Moves by seconds. -/
def addSeconds? (t : DateTime) (seconds : Int) : Except ShiftError DateTime :=
  let clock := t.clock + seconds * 1000000
  match Date.ofDayNumber? (clock.fdiv dayLength) with
  | some date => .ok { t with date, time := Time.ofMicroseconds (clock.fmod dayLength).toNat }
  | none => .error .distance

end DateTime

end Warden

/-
**Dates of the proleptic Gregorian calendar.**

The calendar runs from the first day of the year -9999 to the last day of the year 9999, with a
year 0 and with the Gregorian leap rule throughout.  A `Date` carries the proof that it is a date
of that calendar, so no operation has to check one again; the price is that stepping over either
end of the calendar has no result.

Main definitions:

* `isLeap`, `monthLength` — the leap rule and the lengths of the months;
* `IsDate`, `Date` — the triples that are dates, and the dates;
* `Date.next?`, `Date.prev?` — the neighbouring days;
* `Date.dayNumber` — the days since the first day of the year 0, which turns distances between
  dates into subtraction;
* `Date.weekday` — the day of the week, `1` for Sunday to `7` for Saturday;
* `Date.previousMonthLength?` — the length of the month before the one a date is in.
-/

set_option relaxedAutoImplicit false
set_option autoImplicit false

namespace Timetable

/-! ### Years and months -/

/-- Every fourth year is a leap year, except for the centuries that 400 does not divide. -/
def isLeap (year : Int) : Bool :=
  year % 4 = 0 && (year % 100 ≠ 0 || year % 400 = 0)

/-- The number of days of a month, given for `1 ≤ month ≤ 12`. -/
def monthLength (year month : Int) : Int :=
  if month = 2 then (if isLeap year then 29 else 28)
  else if month = 4 ∨ month = 6 ∨ month = 9 ∨ month = 11 then 30
  else 31

theorem monthLength_pos (year month : Int) : 28 ≤ monthLength year month := by
  unfold monthLength; repeat' split
  all_goals omega

theorem monthLength_le (year month : Int) : monthLength year month ≤ 31 := by
  unfold monthLength; repeat' split
  all_goals omega

/-! ### Dates -/

/-- The three numbers name a day of the calendar. -/
def IsDate (year month day : Int) : Prop :=
  (-9999 ≤ year ∧ year ≤ 9999) ∧ (1 ≤ month ∧ month ≤ 12) ∧
    (1 ≤ day ∧ day ≤ monthLength year month)

instance (year month day : Int) : Decidable (IsDate year month day) :=
  inferInstanceAs (Decidable (_ ∧ _))

/-- A day of the calendar. -/
structure Date where
  year : Int
  month : Int
  day : Int
  isDate : IsDate year month day
  deriving DecidableEq

namespace Date

/-- The date with these numbers, if they name one. -/
def of? (year month day : Int) : Option Date :=
  if h : IsDate year month day then some ⟨year, month, day, h⟩ else none

theorem of?_eq_some_iff {year month day : Int} {d : Date} :
    of? year month day = some d ↔ d.year = year ∧ d.month = month ∧ d.day = day := by
  unfold of?
  constructor
  · intro h
    split at h
    · cases h; exact ⟨rfl, rfl, rfl⟩
    · cases h
  · rintro ⟨rfl, rfl, rfl⟩
    rw [dif_pos d.isDate]

@[simp] theorem of?_self (d : Date) : of? d.year d.month d.day = some d :=
  of?_eq_some_iff.2 ⟨rfl, rfl, rfl⟩

/-- The number of days of the month the date is in. -/
def monthLength (d : Date) : Int := Timetable.monthLength d.year d.month

/-! ### Neighbouring days -/

/-- The day after; there is none after the last day of the calendar. -/
def next? (d : Date) : Option Date :=
  if d.day < d.monthLength then of? d.year d.month (d.day + 1)
  else if d.month < 12 then of? d.year (d.month + 1) 1
  else of? (d.year + 1) 1 1

/-- The day before; there is none before the first day of the calendar. -/
def prev? (d : Date) : Option Date :=
  if 1 < d.day then of? d.year d.month (d.day - 1)
  else if 1 < d.month then of? d.year (d.month - 1) (Timetable.monthLength d.year (d.month - 1))
  else of? (d.year - 1) 12 31

/-- The date `n` days later. -/
def later? (d : Date) : Nat → Option Date
  | 0 => some d
  | n + 1 => d.next?.bind (later? · n)

/-! ### Counting days -/

/-- The days before the first day of a year, counted from the first day of the year 0. -/
def daysBeforeYear (year : Int) : Int :=
  365 * year + (year + 3) / 4 - (year + 99) / 100 + (year + 399) / 400

/-- The days of a year before the first day of a month. -/
def daysBeforeMonth (year month : Int) : Int :=
  let leapDay := if isLeap year then 1 else 0
  if month ≤ 1 then 0 else if month = 2 then 31 else leapDay +
    (if month = 3 then 59 else if month = 4 then 90 else if month = 5 then 120
     else if month = 6 then 151 else if month = 7 then 181 else if month = 8 then 212
     else if month = 9 then 243 else if month = 10 then 273 else if month = 11 then 304
     else 334)

/-- The days from the first day of the year 0 to the date. -/
def dayNumber (d : Date) : Int :=
  daysBeforeYear d.year + daysBeforeMonth d.year d.month + (d.day - 1)

/-- The days from one date to another, negative if the other comes first. -/
def daysUntil (d e : Date) : Int := e.dayNumber - d.dayNumber

/-- The day of the week, from `1` for Sunday to `7` for Saturday: the first day of the year 0 is a
Saturday. -/
def weekday (d : Date) : Int := (d.dayNumber + 6) % 7 + 1

theorem weekday_mem (d : Date) : 1 ≤ d.weekday ∧ d.weekday ≤ 7 := by
  unfold weekday; omega

end Date

/-! ### Months looked up by number -/

/-- The number of days of a month, if it is a month of the calendar. -/
def monthLength? (year month : Int) : Option Int :=
  (Date.of? year month 1).map Date.monthLength

/-- The length of the month before the one a date is in; the first month of the calendar has no
month before it. -/
def Date.previousMonthLength? (d : Date) : Option Int :=
  if 1 < d.month then monthLength? d.year (d.month - 1) else monthLength? (d.year - 1) 12

/-- The number of days of the month before a month, if both are months of the calendar. -/
def previousMonthLength? (year month : Int) : Option Int :=
  (Date.of? year month 1).bind Date.previousMonthLength?

/-- Whether a year of the calendar is a leap year; a year outside it counts as none. -/
def isCalendarLeap (year : Int) : Bool :=
  (Date.of? year 1 1).isSome && isLeap year

end Timetable

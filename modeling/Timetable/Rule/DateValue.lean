/-
**Dates of a rule, with or without a year.**

A date in a rule may leave out its year; it then recurs every year.  Dates with a year and dates
without one live on different lines and are not comparable with each other, so the order is
partial.  Nothing here asks whether the numbers name a day of the calendar.

Main definitions:

* `DateValue`, `DateValue.yearless`, `DateValue.full` — the two kinds of date;
* `DateValue.compare?` — the partial order, year first, then month, then day;
* `DateValue.firstOfYear`, `DateValue.lastOf` — the ends of the two lines.
-/

import Timetable.Calendar.Date

set_option relaxedAutoImplicit false
set_option autoImplicit false

namespace Timetable

/-- The first year a rule may name. -/
def firstRuleYear : Int := 1900

/-- The last year a rule may name. -/
def lastRuleYear : Int := 2200

/-- The leap year in which a date without a year is looked up, so that 2/29 is one. -/
def yearlessLeapYear : Int := 2000

/-- A date with or without a year. -/
structure DateValue where
  year : Option Int
  month : Int
  day : Int
  deriving DecidableEq

namespace DateValue

/-- The date without a year: every year's `month`/`day`. -/
def yearless (month day : Int) : DateValue := ⟨none, month, day⟩

/-- The date of one year. -/
def full (year month day : Int) : DateValue := ⟨some year, month, day⟩

/-- Whether the date has a year. -/
def isFull (v : DateValue) : Bool := v.year.isSome

@[simp] theorem isFull_yearless (month day : Int) : (yearless month day).isFull = false := rfl

@[simp] theorem isFull_full (year month day : Int) : (full year month day).isFull = true := rfl

/-- The first date of the year. -/
def firstOfYear : DateValue := yearless 1 1

/-- The last date a rule may name, with or without a year. -/
def lastOf (isFull : Bool) : DateValue :=
  if isFull then full lastRuleYear 12 31 else yearless 12 31

/-- A day of the calendar with its year. -/
def ofDate (d : Date) : DateValue := full d.year d.month d.day

/-- A day of the calendar without its year. -/
def yearlessOfDate (d : Date) : DateValue := yearless d.month d.day

/-! ### Order -/

/-- Month before day. -/
def compareInYear (v w : DateValue) : Ordering :=
  (compare v.month w.month).then (compare v.day w.day)

/-- How two dates of the same kind compare: year before month before day. -/
def compare? (v w : DateValue) : Option Ordering :=
  match v.year, w.year with
  | none, none => some (compareInYear v w)
  | some y, some z => some ((compare y z).then (compareInYear v w))
  | _, _ => none

instance : LT DateValue := ⟨fun v w => compare? v w = some .lt⟩

instance : LE DateValue := ⟨fun v w => compare? v w = some .lt ∨ compare? v w = some .eq⟩

instance (v w : DateValue) : Decidable (v < w) :=
  inferInstanceAs (Decidable (compare? v w = some .lt))

instance (v w : DateValue) : Decidable (v ≤ w) :=
  inferInstanceAs (Decidable (compare? v w = some .lt ∨ compare? v w = some .eq))

theorem lt_def {v w : DateValue} : v < w ↔ compare? v w = some .lt := Iff.rfl

theorem le_def {v w : DateValue} : v ≤ w ↔ compare? v w = some .lt ∨ compare? v w = some .eq :=
  Iff.rfl

/-- Two dates compare exactly when both or neither have a year. -/
theorem isSome_compare? (v w : DateValue) : (compare? v w).isSome = (v.isFull == w.isFull) := by
  unfold compare? isFull
  split <;> simp_all
  · rename_i h₁ h₂
    cases hv : v.year <;> cases hw : w.year <;> simp_all

end DateValue

end Timetable

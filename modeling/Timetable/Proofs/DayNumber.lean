/-
**Day numbers count the days of the calendar.**

`Date.dayNumber` is a closed formula and `Date.next?` looks at month lengths; nothing in their
definitions says that they belong together.  This module proves that they do: the next day has the
next number, and there is no next day only where no date has a greater number.  The year, the month
and the day of a date are compared in this order by comparing day numbers, so a date is determined
by its number and the numbers order the dates.

Main definitions:

* `Date.dayOfYear` — the days of a year before a date;
* the linear order on `Date`, by day number.

Main results:

* `Date.dayNumber_lt_iff` — **day numbers compare as year, month and day do**;
* `Date.dayNumber_injective` — a date is determined by its day number;
* `Date.dayNumber_next?`, `Date.dayNumber_le_of_next?_eq_none` — the next day, and its absence;
* `Date.dayNumber_prev?`, `Date.le_dayNumber_of_prev?_eq_none` — the same for the day before.
-/

import Mathlib.Data.Int.Init
import Mathlib.Order.Basic
import Mathlib.Order.Lattice
import Timetable.Calendar.Date

set_option relaxedAutoImplicit false
set_option autoImplicit false

namespace Timetable

/-! ### Lengths of years and months -/

/-- The number of days of a year. -/
def yearLength (year : Int) : Int := if isLeap year then 366 else 365

namespace Date

theorem daysBeforeYear_succ (year : Int) :
    daysBeforeYear (year + 1) = daysBeforeYear year + yearLength year := by
  unfold daysBeforeYear yearLength isLeap
  split
  · rename_i h
    simp only [Bool.and_eq_true, Bool.or_eq_true, decide_eq_true_eq] at h
    omega
  · rename_i h
    simp only [Bool.and_eq_true, Bool.or_eq_true, decide_eq_true_eq] at h
    omega

theorem daysBeforeYear_mono {y z : Int} (h : y ≤ z) : daysBeforeYear y ≤ daysBeforeYear z := by
  unfold daysBeforeYear; omega

theorem daysBeforeMonth_succ (year : Int) {month : Int} (h₁ : 1 ≤ month) (h₂ : month < 12) :
    daysBeforeMonth year (month + 1) =
      daysBeforeMonth year month + Timetable.monthLength year month := by
  obtain rfl | rfl | rfl | rfl | rfl | rfl | rfl | rfl | rfl | rfl | rfl :
      month = 1 ∨ month = 2 ∨ month = 3 ∨ month = 4 ∨ month = 5 ∨ month = 6 ∨ month = 7 ∨
        month = 8 ∨ month = 9 ∨ month = 10 ∨ month = 11 := by omega
  all_goals
    unfold daysBeforeMonth Timetable.monthLength
    cases isLeap year <;> rfl

/-- A month ends before a later month of the same year begins. -/
theorem daysBeforeMonth_add_monthLength_le (year : Int) {month later : Int} (h₁ : 1 ≤ month)
    (h : month < later) (h₂ : later ≤ 12) :
    daysBeforeMonth year month + Timetable.monthLength year month ≤
      daysBeforeMonth year later := by
  induction later, h using Int.leInduction with
  | base => exact le_of_eq (daysBeforeMonth_succ year h₁ (by omega)).symm
  | succ later h ih =>
      have := ih (by omega)
      rw [daysBeforeMonth_succ year (by omega) (by omega)]
      have := monthLength_pos year later
      omega

theorem daysBeforeMonth_december (year : Int) :
    daysBeforeMonth year 12 + 31 = yearLength year := by
  unfold daysBeforeMonth yearLength
  cases isLeap year <;> rfl

/-! ### Days of a year -/

/-- The days of the year before the date. -/
def dayOfYear (d : Date) : Int := daysBeforeMonth d.year d.month + (d.day - 1)

theorem dayNumber_eq (d : Date) : d.dayNumber = daysBeforeYear d.year + d.dayOfYear := by
  unfold dayNumber dayOfYear; omega

theorem one_le_month (d : Date) : 1 ≤ d.month := d.isDate.2.1.1

theorem month_le (d : Date) : d.month ≤ 12 := d.isDate.2.1.2

theorem one_le_day (d : Date) : 1 ≤ d.day := d.isDate.2.2.1

theorem day_le (d : Date) : d.day ≤ d.monthLength := d.isDate.2.2.2

theorem dayOfYear_nonneg (d : Date) : 0 ≤ d.dayOfYear := by
  have hday := d.one_le_day
  have hmonth : 0 ≤ daysBeforeMonth d.year d.month := by
    obtain h | h : d.month = 1 ∨ 1 < d.month := by have := d.one_le_month; omega
    · rw [h]; rfl
    · have hfirst : daysBeforeMonth d.year 1 = 0 := rfl
      have := daysBeforeMonth_add_monthLength_le d.year (le_refl 1) h d.month_le
      have := monthLength_pos d.year 1
      omega
  unfold dayOfYear; omega

theorem dayOfYear_lt (d : Date) : d.dayOfYear < yearLength d.year := by
  have hday := d.day_le
  have hmonth : daysBeforeMonth d.year d.month + d.monthLength ≤ yearLength d.year := by
    have hlast := daysBeforeMonth_december d.year
    obtain h | h : d.month < 12 ∨ d.month = 12 := by have := d.month_le; omega
    · have := daysBeforeMonth_add_monthLength_le d.year d.one_le_month h (by omega)
      unfold monthLength; omega
    · have := Timetable.monthLength_le d.year d.month
      unfold monthLength; rw [h] at *; omega
  unfold dayOfYear; omega

/-! ### Comparing dates -/

theorem dayNumber_lt_of_year_lt {d e : Date} (h : d.year < e.year) :
    d.dayNumber < e.dayNumber := by
  have hyear := daysBeforeYear_mono (y := d.year + 1) (z := e.year) (by omega)
  rw [daysBeforeYear_succ] at hyear
  have := d.dayOfYear_lt
  have := e.dayOfYear_nonneg
  rw [dayNumber_eq, dayNumber_eq]
  omega

theorem dayNumber_lt_of_month_lt {d e : Date} (hy : d.year = e.year) (h : d.month < e.month) :
    d.dayNumber < e.dayNumber := by
  have hmonth := daysBeforeMonth_add_monthLength_le d.year d.one_le_month h e.month_le
  have hday := d.day_le
  have := e.one_le_day
  unfold monthLength at hday
  unfold dayNumber
  rw [hy] at *
  omega

theorem dayNumber_lt_of_day_lt {d e : Date} (hy : d.year = e.year) (hm : d.month = e.month)
    (h : d.day < e.day) : d.dayNumber < e.dayNumber := by
  unfold dayNumber; rw [hy, hm]; omega

/-- **Day numbers compare as year, month and day do.** -/
theorem dayNumber_lt_iff {d e : Date} :
    d.dayNumber < e.dayNumber ↔ d.year < e.year ∨ d.year = e.year ∧
      (d.month < e.month ∨ d.month = e.month ∧ d.day < e.day) := by
  have of_lex : ∀ d e : Date, (d.year < e.year ∨ d.year = e.year ∧
      (d.month < e.month ∨ d.month = e.month ∧ d.day < e.day)) → d.dayNumber < e.dayNumber := by
    rintro d e (h | ⟨hy, h | ⟨hm, h⟩⟩)
    · exact dayNumber_lt_of_year_lt h
    · exact dayNumber_lt_of_month_lt hy h
    · exact dayNumber_lt_of_day_lt hy hm h
  constructor
  · intro h
    -- otherwise the dates are equal or compare the other way round
    by_contra hlex
    by_cases heq : d.year = e.year ∧ d.month = e.month ∧ d.day = e.day
    · obtain ⟨hy, hm, hd⟩ := heq
      unfold dayNumber at h
      rw [hy, hm, hd] at h
      exact lt_irrefl _ h
    · exact lt_asymm h (of_lex e d (by omega))
  · exact of_lex d e

theorem dayNumber_injective : Function.Injective dayNumber := by
  intro d e h
  have h₁ := mt dayNumber_lt_iff.2 (not_lt.2 h.ge)
  have h₂ := mt dayNumber_lt_iff.2 (not_lt.2 h.le)
  have hy : d.year = e.year := by omega
  have hm : d.month = e.month := by omega
  have hd : d.day = e.day := by omega
  cases d; cases e
  simp_all

theorem dayNumber_inj {d e : Date} : d.dayNumber = e.dayNumber ↔ d = e :=
  dayNumber_injective.eq_iff

/-- Dates are ordered by their day numbers. -/
instance : LinearOrder Date := LinearOrder.lift' dayNumber dayNumber_injective

theorem le_def {d e : Date} : d ≤ e ↔ d.dayNumber ≤ e.dayNumber := Iff.rfl

theorem lt_def {d e : Date} : d < e ↔ d.dayNumber < e.dayNumber := Iff.rfl

/-! ### Neighbouring days -/

theorem of?_eq_none_iff {year month day : Int} :
    of? year month day = none ↔ ¬ IsDate year month day := by
  simp [of?]

theorem monthLength_eq (d : Date) : d.monthLength = Timetable.monthLength d.year d.month := rfl

theorem monthLength_december (year : Int) : Timetable.monthLength year 12 = 31 := rfl

/-- The next day has the next number. -/
theorem dayNumber_next? {d e : Date} (h : d.next? = some e) :
    e.dayNumber = d.dayNumber + 1 := by
  have hday := d.day_le
  rw [monthLength_eq] at hday
  unfold next? at h
  rw [monthLength_eq] at h
  split at h
  · obtain ⟨hy, hm, hd⟩ := of?_eq_some_iff.1 h
    unfold dayNumber; rw [hy, hm, hd]; omega
  · rename_i hfull
    split at h
    · obtain ⟨hy, hm, hd⟩ := of?_eq_some_iff.1 h
      have := daysBeforeMonth_succ d.year d.one_le_month ‹_›
      unfold dayNumber; rw [hy, hm, hd]; omega
    · obtain ⟨hy, hm, hd⟩ := of?_eq_some_iff.1 h
      have hlast : d.month = 12 := by have := d.month_le; omega
      have hfirst : daysBeforeMonth (d.year + 1) 1 = 0 := rfl
      have hyear := daysBeforeYear_succ d.year
      have hlength := daysBeforeMonth_december d.year
      rw [hlast, monthLength_december] at hday hfull
      unfold dayNumber; rw [hy, hm, hd, hlast]; omega

/-- There is no next day only where no date has a greater number. -/
theorem dayNumber_le_of_next?_eq_none {d : Date} (h : d.next? = none) (e : Date) :
    e.dayNumber ≤ d.dayNumber := by
  have hd := d.isDate
  have he := e.isDate
  by_contra hlt
  rw [not_le, dayNumber_lt_iff] at hlt
  unfold next? at h
  rw [monthLength_eq] at h
  split at h
  · refine of?_eq_none_iff.1 h ⟨hd.1, hd.2.1, ?_⟩
    have := hd.2.2
    omega
  · rename_i hfull
    split at h
    · refine of?_eq_none_iff.1 h ⟨hd.1, by have := hd.2.1; omega, le_refl 1, ?_⟩
      have := monthLength_pos d.year (d.month + 1)
      omega
    · -- the last day of a year that is not the last one
      have hlong := monthLength_le e.year e.month
      have hlast : d.month = 12 := by have := d.month_le; omega
      have hend : 31 ≤ d.day := by
        rw [hlast, monthLength_december] at hfull
        omega
      obtain ⟨hyear, hmonth, hday⟩ := hd
      obtain ⟨hyear', hmonth', hday'⟩ := he
      refine of?_eq_none_iff.1 h ⟨by omega, by omega, le_refl 1, ?_⟩
      have := monthLength_pos (d.year + 1) 1
      omega

/-- The day before has the number before. -/
theorem dayNumber_prev? {d e : Date} (h : d.prev? = some e) :
    e.dayNumber = d.dayNumber - 1 := by
  have hday := d.one_le_day
  have hmonth := d.one_le_month
  unfold prev? at h
  split at h
  · obtain ⟨hy, hm, hd⟩ := of?_eq_some_iff.1 h
    unfold dayNumber; rw [hy, hm, hd]; omega
  · split at h
    · obtain ⟨hy, hm, hd⟩ := of?_eq_some_iff.1 h
      have hsucc : daysBeforeMonth d.year (d.month - 1 + 1) = _ :=
        daysBeforeMonth_succ d.year (by omega) (by have := d.month_le; omega)
      rw [Int.sub_add_cancel] at hsucc
      unfold dayNumber; rw [hy, hm, hd]; omega
    · obtain ⟨hy, hm, hd⟩ := of?_eq_some_iff.1 h
      have hfirst : d.month = 1 := by omega
      have hzero : daysBeforeMonth d.year 1 = 0 := rfl
      have hyear := daysBeforeYear_succ (d.year - 1)
      rw [Int.sub_add_cancel] at hyear
      have hlength := daysBeforeMonth_december (d.year - 1)
      unfold dayNumber; rw [hy, hm, hd, hfirst]; omega

/-- There is no day before only where no date has a smaller number. -/
theorem le_dayNumber_of_prev?_eq_none {d : Date} (h : d.prev? = none) (e : Date) :
    d.dayNumber ≤ e.dayNumber := by
  have hd := d.isDate
  have he := e.isDate
  by_contra hlt
  rw [not_le, dayNumber_lt_iff] at hlt
  unfold prev? at h
  split at h
  · refine of?_eq_none_iff.1 h ⟨hd.1, hd.2.1, ?_⟩
    have := hd.2.2
    omega
  · split at h
    · refine of?_eq_none_iff.1 h ⟨hd.1, by have := hd.2.1; omega, ?_, le_refl _⟩
      have := monthLength_pos d.year (d.month - 1)
      omega
    · refine of?_eq_none_iff.1 h ⟨?_, by decide, by decide, le_of_eq (by rfl)⟩
      obtain ⟨hyear, hmonth, hday⟩ := hd
      obtain ⟨hyear', hmonth', hday'⟩ := he
      omega

end Date

end Timetable

/-
**Days alike in different years.**

Rules for the day of the month see little of the year: the lengths of the month and of the month
before.  These are the same in all years but for February, so the year counts in February and in
March only, and there only whether it is a leap year.  Rules for the day of the week see where the
week stands, which is the same again after 400 years, as are the leap years.

Main definitions:

* `Date.IsLike` — the same day of the same month, in a year that is as good for that month.

Main results:

* `Date.exists_isLike` — a year has a day alike if it is a leap year or not as the month requires;
* `Date.weekday_of_emod_eq` — **every 400 years a date falls on the same day of the week**;
* `Group.admitsDayOfMonth_of_isLike` — **rules for the day of the month do not tell days alike
  apart**.
-/

import Timetable.Proofs.MonthProgression

set_option relaxedAutoImplicit false
set_option autoImplicit false

namespace Timetable

/-! ### Leap years -/

theorem isLeap_of_emod_eq {y z : Int} (h : y % 400 = z % 400) : isLeap y = isLeap z := by
  have h₄ : y % 4 = z % 4 := by omega
  have h₁₀₀ : y % 100 = z % 100 := by omega
  unfold isLeap
  rw [h₄, h₁₀₀, h]

/-- Only February is longer in a leap year. -/
theorem monthLength_of_isLeap {y z month : Int} (h : month = 2 → isLeap y = isLeap z) :
    monthLength y month = monthLength z month := by
  unfold monthLength
  by_cases hfeb : month = 2
  · rw [h hfeb]
  · simp only [if_neg hfeb]

namespace Date

variable {d e : Date}

theorem daysBeforeMonth_of_isLeap {y z : Int} (month : Int)
    (h : Timetable.isLeap y = Timetable.isLeap z) :
    daysBeforeMonth y month = daysBeforeMonth z month := by
  unfold daysBeforeMonth
  rw [h]

/-! ### Days alike -/

/-- The same day of the same month.  In February and March, where it counts for the length of the
month or of the month before, the years are both leap years or both none. -/
structure IsLike (e d : Date) : Prop where
  month : e.month = d.month
  day : e.day = d.day
  isLeap : d.month = 2 ∨ d.month = 3 → isLeap e.year = isLeap d.year

theorem IsLike.monthLength_eq (h : e.IsLike d) : e.monthLength = d.monthLength := by
  rw [Date.monthLength_eq, Date.monthLength_eq, h.month]
  exact monthLength_of_isLeap fun hfeb => h.isLeap (Or.inl hfeb)

/-- The first year of the calendar is left out, as its January has no month before it. -/
theorem IsLike.previousMonthLength?_eq (h : e.IsLike d) (hd : -9999 < d.year)
    (he : -9999 < e.year) : e.previousMonthLength? = d.previousMonthLength? := by
  have hcalendar := d.isDate.1
  have hcalendar' := e.isDate.1
  have hmonth := d.isDate.2.1
  unfold previousMonthLength?
  rw [h.month]
  split
  · rw [monthLength?_eq hcalendar' (by omega), monthLength?_eq hcalendar (by omega)]
    exact congrArg some (monthLength_of_isLeap fun hmar => h.isLeap (Or.inr (by omega)))
  · rw [monthLength?_eq (by omega) (by decide), monthLength?_eq (by omega) (by decide),
      monthLength_december, monthLength_december]

/-- Every year has a day alike, if it is a leap year or not as the month requires. -/
theorem exists_isLike {y : Int} (hy : -9999 ≤ y ∧ y ≤ 9999)
    (hleap : d.month = 2 ∨ d.month = 3 → Timetable.isLeap y = Timetable.isLeap d.year) :
    ∃ e : Date, e.year = y ∧ e.IsLike d := by
  have hlength : Timetable.monthLength y d.month = Timetable.monthLength d.year d.month :=
    monthLength_of_isLeap fun hfeb => hleap (Or.inl hfeb)
  exact ⟨⟨y, d.month, d.day, hy, d.isDate.2.1, hlength ▸ d.isDate.2.2⟩, rfl, rfl, rfl, hleap⟩

/-- **Every 400 years a date falls on the same day of the week.** -/
theorem weekday_of_emod_eq (h : e.IsLike d) (hyear : e.year % 400 = d.year % 400) :
    e.weekday = d.weekday := by
  have hmonths : daysBeforeMonth e.year d.month = daysBeforeMonth d.year d.month :=
    daysBeforeMonth_of_isLeap d.month (isLeap_of_emod_eq hyear)
  have hyears : daysBeforeYear e.year =
      daysBeforeYear d.year + 146097 * (e.year / 400 - d.year / 400) := by
    unfold daysBeforeYear
    omega
  unfold weekday dayNumber
  rw [h.month, h.day, hmonths, hyears]
  omega

end Date

namespace Group

variable {g : Group} {d e : Date}

/-- **Rules for the day of the month do not tell days alike apart.** -/
theorem admitsDayOfMonth_of_isLike (h : e.IsLike d) (hd : -9999 < d.year) (he : -9999 < e.year) :
    g.admitsDayOfMonth e = g.admitsDayOfMonth d := by
  unfold admitsDayOfMonth
  rw [h.previousMonthLength?_eq hd he, h.monthLength_eq, h.day]

/-- Rules for the day of the week look at nothing else. -/
theorem admitsDayOfWeek_of_weekday_eq (h : e.weekday = d.weekday) :
    g.admitsDayOfWeek e = g.admitsDayOfWeek d := by
  unfold admitsDayOfWeek
  rw [h]

end Group

end Timetable

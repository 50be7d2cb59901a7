/-
**The order of dates is a partial order along the calendar.**

Dates of a rule are compared by year, month and day, and one with a year is never compared with one
without.  On each of these two lines the order is a linear order, that of the triple of parts with
some year put in for the one left out, and from this come all laws of the order.

What the order says about days is shown by counting them.  Of two days of the calendar the one that
comes first by year, month and day is the one from which the other is reached by going from day to
day, and the number of days it takes is the difference of their day numbers.  Dates without a year
are compared in this way within any year that has both of them, which is every leap year, and every
common year too if neither is 29 February.

Main definitions:

* `DateValue.parts` — year, month and day, compared in this order;
* `DateValue.CompareAsDays` — **two dates compare by the number of days from one to the other**.

Main results:

* `Date.later?_eq_some_iff` — **the days between two dates are the steps from one to the other**;
* `DateValue.compare?_eq_ite` — dates of one line are compared as their parts are;
* `DateValue.compareAsDays_ofDate`, `DateValue.compareAsDays_of_year` — comparing dates with years,
  and dates without one in a year that has both;
* `DateValue.IsNameable.exists_of?` — the years that have a date;
* `DateValue.order_follows_calendar` — **the order is a partial order along the calendar**.
-/

import Timetable.Proofs.DateProgression

set_option relaxedAutoImplicit false
set_option autoImplicit false

namespace Timetable

/-! ### Counting days -/

namespace Date

variable {d e : Date}

theorem daysUntil_pos_iff : 0 < d.daysUntil e ↔ d < e := by
  rw [lt_def, daysUntil]
  omega

theorem daysUntil_neg_iff : d.daysUntil e < 0 ↔ e < d := by
  rw [lt_def, daysUntil]
  omega

/-- Going on from day to day raises the day number by one each time. -/
theorem dayNumber_later? {n : Nat} (h : d.later? n = some e) :
    e.dayNumber = d.dayNumber + n := by
  induction n generalizing d with
  | zero =>
      cases h
      exact (Int.add_zero _).symm
  | succ n ih =>
      obtain ⟨next, hnext, hlater⟩ := Option.bind_eq_some_iff.1 h
      rw [ih hlater, dayNumber_next? hnext]
      omega

/-- Every later day of the calendar is reached from day to day. -/
theorem later?_of_dayNumber {n : Nat} (h : e.dayNumber = d.dayNumber + n) :
    d.later? n = some e := by
  induction n generalizing d with
  | zero =>
      have heq : d = e := dayNumber_inj.1 (by omega)
      rw [heq]
      rfl
  | succ n ih =>
      cases hnext : d.next? with
      | none =>
          -- then no day has a greater number
          have hlast := dayNumber_le_of_next?_eq_none hnext e
          omega
      | some next =>
          have hnumber := dayNumber_next? hnext
          rw [later?, hnext, Option.bind_some]
          exact ih (by omega)

/-- **The days between two dates are the steps from one to the other.** -/
theorem later?_eq_some_iff {n : Nat} : d.later? n = some e ↔ d.daysUntil e = n := by
  rw [daysUntil]
  constructor
  · intro h
    have := dayNumber_later? h
    omega
  · intro h
    exact later?_of_dayNumber (by omega)

/-- Days of one year are ordered by month and day. -/
theorem lt_iff_of_year_eq (h : d.year = e.year) : d < e ↔ d.monthDay < e.monthDay := by
  rw [lt_def, dayNumber_lt_iff, monthDay, monthDay, Prod.Lex.toLex_lt_toLex]
  simp [h]

end Date

namespace DateValue

variable {u v w : DateValue} {d e : Date}

/-! ### The order on each line -/

/-- Year, month and day, compared in this order.  The year that is left out is the same for all. -/
def parts (v : DateValue) : Int ×ₗ Int ×ₗ Int :=
  toLex (v.year.getD yearlessLeapYear, v.monthDay)

/-- Dates of one line are determined by their parts. -/
theorem eq_of_parts_eq (hfull : v.isFull = w.isFull) (h : v.parts = w.parts) : v = w := by
  obtain ⟨hyear, hmonthDay⟩ := Prod.ext_iff.1 (toLex.injective h)
  obtain ⟨hmonth, hday⟩ := Prod.ext_iff.1 (toLex.injective hmonthDay)
  obtain ⟨year, month, day⟩ := v
  obtain ⟨year', month', day'⟩ := w
  cases hmonth
  cases hday
  cases year <;> cases year' <;> simp_all [isFull]

/-- **Dates of one line are compared as their parts are**, and dates of different lines are not
compared. -/
theorem compare?_eq_ite (v w : DateValue) :
    compare? v w = if v.isFull = w.isFull then some (compare v.parts w.parts) else none := by
  have hinYear : compareInYear v w = compare v.monthDay w.monthDay := rfl
  have hparts : compare v.parts w.parts =
      (compare (v.year.getD yearlessLeapYear) (w.year.getD yearlessLeapYear)).then
        (compare v.monthDay w.monthDay) := rfl
  rw [hparts, ← hinYear]
  unfold compare? isFull
  cases v.year <;> cases w.year <;> simp

theorem compare?_eq_eq_iff : compare? v w = some .eq ↔ v = w := by
  rw [compare?_eq_ite]
  constructor
  · intro h
    split at h
    · exact eq_of_parts_eq ‹_› (compare_eq_iff_eq.1 (Option.some_inj.1 h))
    · cases h
  · rintro rfl
    rw [if_pos rfl, compare_eq_iff_eq.2 rfl]

theorem lt_iff_parts : v < w ↔ v.isFull = w.isFull ∧ v.parts < w.parts := by
  rw [lt_def, compare?_eq_ite, ← compare_lt_iff_lt]
  split <;> simp [*]

theorem le_iff_parts : v ≤ w ↔ v.isFull = w.isFull ∧ v.parts ≤ w.parts := by
  by_cases hfull : v.isFull = w.isFull
  · rw [← not_lt_iff_le hfull, lt_iff_parts, ← not_lt]
    simp [hfull]
  · rw [le_def, compare?_eq_ite, if_neg hfull]
    simp [hfull]

theorem antisymm (h : v ≤ w) (h' : w ≤ v) : v = w := by
  rw [le_iff_parts] at h h'
  exact eq_of_parts_eq h.1 (le_antisymm h.2 h'.2)

theorem trans (h : u ≤ v) (h' : v ≤ w) : u ≤ w := by
  rw [le_iff_parts] at h h' ⊢
  exact ⟨h.1.trans h'.1, le_trans h.2 h'.2⟩

theorem trans_lt (h : u < v) (h' : v < w) : u < w := by
  rw [lt_iff_parts] at h h' ⊢
  exact ⟨h.1.trans h'.1, lt_trans h.2 h'.2⟩

theorem isSome_compare?_iff : (compare? v w).isSome = true ↔ v.isFull = w.isFull := by
  rw [isSome_compare?, beq_iff_eq]

/-! ### Comparing by counting days -/

/-- The dates compare as two days do: the first one comes before the other if the number of days
from the one to the other is positive, after it if that number is negative, and is equal to it if it
is zero. -/
def CompareAsDays (v w : DateValue) (d e : Date) : Prop :=
  compare? v w = some (compare 0 (d.daysUntil e))

/-- It is enough to know which of the days comes first. -/
theorem compareAsDays_of_lt_iff (hfull : v.isFull = w.isFull) (hlt : v < w ↔ d < e)
    (hgt : w < v ↔ e < d) : CompareAsDays v w d e := by
  unfold CompareAsDays
  obtain h | h | h := lt_trichotomy 0 (d.daysUntil e)
  · rw [compare_lt_iff_lt.2 h]
    exact hlt.2 (Date.daysUntil_pos_iff.1 h)
  · have hle : v ≤ w := (not_lt_iff_le hfull).1 fun hwv => by
      have := Date.daysUntil_neg_iff.2 (hgt.1 hwv)
      omega
    have hge : w ≤ v := (not_lt_iff_le hfull.symm).1 fun hvw => by
      have := Date.daysUntil_pos_iff.2 (hlt.1 hvw)
      omega
    rw [compare_eq_iff_eq.2 h]
    exact compare?_eq_eq_iff.2 (antisymm hle hge)
  · rw [compare_gt_iff_gt.2 h, compare?_swap, lt_def.1 (hgt.2 (Date.daysUntil_neg_iff.1 h))]
    rfl

/-- Days of the calendar are compared with their years by counting days. -/
theorem compareAsDays_ofDate (d e : Date) : CompareAsDays (ofDate d) (ofDate e) d e :=
  compareAsDays_of_lt_iff rfl ofDate_lt_ofDate ofDate_lt_ofDate

/-- So are dates without a year that are days of the same year. -/
theorem compareAsDays_of_year {year : Int} (hv : v.year = none) (hw : w.year = none)
    (hd : Date.of? year v.month v.day = some d) (he : Date.of? year w.month w.day = some e) :
    CompareAsDays v w d e := by
  obtain ⟨hyear, hmonth, hday⟩ := Date.of?_eq_some_iff.1 hd
  obtain ⟨hyear', hmonth', hday'⟩ := Date.of?_eq_some_iff.1 he
  have hmonthDay : d.monthDay = v.monthDay := by rw [Date.monthDay, hmonth, hday, monthDay]
  have hmonthDay' : e.monthDay = w.monthDay := by rw [Date.monthDay, hmonth', hday', monthDay]
  have hsame : d.year = e.year := hyear.trans hyear'.symm
  refine compareAsDays_of_lt_iff ?_ ?_ ?_
  · rw [isFull, isFull, hv, hw]
  · rw [lt_iff_of_yearless hv hw, Date.lt_iff_of_year_eq hsame, hmonthDay, hmonthDay']
  · rw [lt_iff_of_yearless hw hv, Date.lt_iff_of_year_eq hsame.symm, hmonthDay, hmonthDay']

/-- Every leap year of the calendar has each date that a rule may name without a year, and a common
year has all of them but 29 February. -/
theorem IsNameable.exists_of? {year : Int} (h : v.IsNameable) (hv : v.year = none)
    (hyear : -9999 ≤ year ∧ year ≤ 9999) (hleap : isLeap year = true ∨ v ≠ yearless 2 29) :
    ∃ d, Date.of? year v.month v.day = some d := by
  have hlong : ¬(v.month = 2 ∧ v.day = 29 ∧ isLeap year = false) := by
    rintro ⟨hmonth, hday, hcommon⟩
    obtain ⟨y, month, day⟩ := v
    cases hv
    cases hmonth
    cases hday
    rcases hleap with hleap | hne
    · rw [hleap] at hcommon
      cases hcommon
    · exact hne rfl
  exact ⟨⟨year, v.month, v.day, hyear, h.2.1, h.2.2.1, h.day_le hv hlong⟩,
    Date.of?_eq_some_iff.2 ⟨rfl, rfl, rfl⟩⟩

/-- **The order of dates is a partial order along the calendar.**  Comparing two dates yields that
they are equal only for a date and itself, the order is antisymmetric and transitive, and dates are
comparable if both have a year or neither has.  Two days of the calendar compare with their years by
the number of days from one to the other, and so do two dates without a year by the days of any year
that has both, as every leap year has and every common year has but for 29 February.  The number of
days is that of the steps from day to day. -/
theorem order_follows_calendar (u v w : DateValue) :
    (compare? v w = some .eq ↔ v = w) ∧
    (v ≤ w → w ≤ v → v = w) ∧
    compare? w v = (compare? v w).map Ordering.swap ∧
    (u ≤ v → v ≤ w → u ≤ w) ∧
    (u < v → v < w → u < w) ∧
    ((compare? v w).isSome = true ↔ v.isFull = w.isFull) ∧
    (∀ d e, CompareAsDays (ofDate d) (ofDate e) d e) ∧
    (v.IsNameable → v.year = none → w.IsNameable → w.year = none →
      ∀ year, -9999 ≤ year ∧ year ≤ 9999 →
        isLeap year = true ∨ v ≠ yearless 2 29 ∧ w ≠ yearless 2 29 →
          ∃ d e, Date.of? year v.month v.day = some d ∧ Date.of? year w.month w.day = some e ∧
            CompareAsDays v w d e) ∧
    ∀ (d e : Date) (n : Nat), d.daysUntil e = n ↔ d.later? n = some e := by
  refine ⟨compare?_eq_eq_iff, antisymm, compare?_swap v w, trans, trans_lt, isSome_compare?_iff,
    compareAsDays_ofDate, ?_, fun d e n => Date.later?_eq_some_iff.symm⟩
  intro hv hvYear hw hwYear year hyear hleap
  obtain ⟨d, hd⟩ := hv.exists_of? hvYear hyear (hleap.imp_right And.left)
  obtain ⟨e, he⟩ := hw.exists_of? hwYear hyear (hleap.imp_right And.right)
  exact ⟨d, e, hd, he, compareAsDays_of_year hvYear hwYear hd he⟩

end DateValue

end Timetable

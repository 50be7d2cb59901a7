/-
**Ranges of dates hit every so many days.**

A range of dates is asked for a date by comparing months and days and by counting from a day that
depends on the date asked for.  This module says what comes out as a range of days of the calendar.
A range with years is one stretch of days, and it hits the first day of the stretch and then every
so many days.  A range without years has one such stretch in each year, which begins in that year
and may end in the next one.  No day belongs to two stretches, and the day from which the test
counts is the beginning of the stretch that the date belongs to.

Bounds are compared as years, months and days whether or not there is such a day, so that in a
common year a bound on 29 February lies between 28 February and 1 March.  A stretch that begins
there is counted from the 28th, which does not belong to it.

Main definitions:

* `Date.monthDay`, `DateValue.monthDay` — month and day, compared in this order;
* `Range.Occurs` — **the date belongs to the occurrence of a yearly range in a year**;
* `DateValue.CountedFrom` — the day from which an occurrence is counted.

Main results:

* `DateValue.ofDate_le_ofDate` — dates with years compare chronologically;
* `Range.hitsFull_iff` — the dates hit by a range with years;
* `Range.occurs_iff` — a date belongs to at most one occurrence, of its year or of the year before;
* `Range.hitsYearly_iff` — the dates hit by a range without years;
* `Range.hits_progression` — **ranges of dates hit every so many days of each occurrence**.
-/

import Mathlib.Data.Prod.Lex
import Timetable.Proofs.ArgumentLanguage
import Timetable.Proofs.GregorianCycle

set_option relaxedAutoImplicit false
set_option autoImplicit false

namespace Timetable

/-! ### Comparing dates -/

/-- The month and the day, the month first. -/
def Date.monthDay (d : Date) : Int ×ₗ Int := toLex (d.month, d.day)

/-- The month and the day, the month first. -/
def DateValue.monthDay (v : DateValue) : Int ×ₗ Int := toLex (v.month, v.day)

theorem Date.month_day_of_monthDay_eq {d e : Date} (h : e.monthDay = d.monthDay) :
    e.month = d.month ∧ e.day = d.day :=
  Prod.ext_iff.1 (toLex.injective h)

namespace DateValue

variable {v w : DateValue} {d e : Date}

theorem compareInYear_eq_lt_iff : compareInYear v w = .lt ↔ v.monthDay < w.monthDay := by
  unfold compareInYear monthDay
  rw [Ordering.then_eq_lt, compare_lt_iff_lt, compare_eq_iff_eq, compare_lt_iff_lt,
    Prod.Lex.toLex_lt_toLex]

/-- Dates without a year compare by month and day. -/
theorem lt_iff_of_yearless (hv : v.year = none) (hw : w.year = none) :
    v < w ↔ v.monthDay < w.monthDay := by
  rw [lt_def, ← compareInYear_eq_lt_iff]
  unfold compare?
  rw [hv, hw]
  exact Option.some_inj

theorem le_iff_of_yearless (hv : v.year = none) (hw : w.year = none) :
    v ≤ w ↔ v.monthDay ≤ w.monthDay := by
  have hfull : v.isFull = w.isFull := by rw [isFull, isFull, hv, hw]
  rw [← not_lt_iff_le hfull, lt_iff_of_yearless hw hv, not_lt]

theorem year_eq_none (h : v.isFull = false) : v.year = none :=
  Option.isNone_iff_eq_none.1 (Option.isSome_eq_false_iff.1 h)

/-- A date without a year is every date with its month and day. -/
theorem yearlessOfDate_eq_iff (hv : v.year = none) :
    yearlessOfDate d = v ↔ d.monthDay = v.monthDay := by
  constructor
  · rintro rfl
    rfl
  · intro h
    obtain ⟨hmonth, hday⟩ : d.month = v.month ∧ d.day = v.day := Prod.ext_iff.1 (toLex.injective h)
    have hparts : v = ⟨v.year, v.month, v.day⟩ := rfl
    rw [hparts, hv, ← hmonth, ← hday]
    rfl

/-- **Dates with years compare chronologically.** -/
theorem ofDate_lt_ofDate : ofDate d < ofDate e ↔ d < e := by
  have hinYear := compareInYear_eq_lt_iff (v := ofDate d) (w := ofDate e)
  have hcompare : ofDate d < ofDate e ↔
      (compare d.year e.year).then (compareInYear (ofDate d) (ofDate e)) = .lt := Option.some_inj
  rw [hcompare, Ordering.then_eq_lt, hinYear, compare_lt_iff_lt, compare_eq_iff_eq, monthDay,
    monthDay, Prod.Lex.toLex_lt_toLex, Date.lt_def, Date.dayNumber_lt_iff]
  rfl

theorem ofDate_le_ofDate : ofDate d ≤ ofDate e ↔ d ≤ e := by
  have hfull : (ofDate d).isFull = (ofDate e).isFull := rfl
  rw [← not_lt_iff_le hfull, ofDate_lt_ofDate, not_lt]

theorem ofDate_inj : ofDate d = ofDate e ↔ d = e := by
  constructor
  · intro h
    have hle : d ≤ e ∧ e ≤ d := by
      rw [← ofDate_le_ofDate, ← ofDate_le_ofDate, h]
      exact ⟨ofDate_le_ofDate.2 (le_refl e), ofDate_le_ofDate.2 (le_refl e)⟩
    exact le_antisymm hle.1 hle.2
  · rintro rfl
    rfl

/-- A date with a year that a rule may name is a day of the calendar. -/
theorem IsNameable.exists_ofDate (h : v.IsNameable) (hfull : v.isFull = true) :
    ∃ a : Date, ofDate a = v := by
  obtain ⟨year, month, day⟩ := v
  obtain ⟨y, rfl⟩ := Option.isSome_iff_exists.1 hfull
  obtain ⟨hyear, hmonth, hday⟩ := h
  have hbounds := hyear y rfl
  exact ⟨⟨y, month, day, by omega, hmonth, hday⟩, rfl⟩

end DateValue

/-! ### Counting days -/

namespace Range

variable {r : Range DateValue} {d a : Date} {y : Int}

/-- Counting from a day hits every so many days, all of them if the interval is one. -/
theorem onInterval_iff :
    (decide (r.interval = 1) || r.onInterval (some a) d) = true ↔
      (r.interval : Int) ∣ a.daysUntil d := by
  rw [Bool.or_eq_true, decide_eq_true_eq, onInterval, Option.any_some, decide_eq_true_eq,
    Int.dvd_iff_emod_eq_zero, or_iff_right_iff_imp]
  intro hone
  rw [hone]
  exact Int.emod_one _

/-- The tests of both sorts of range: a date is hit if it is not the end left out, lies inside and is
counted. -/
theorem date_test_eq_true_iff {halfOpen counted : Bool} {atStop inside : Prop} [Decidable atStop]
    [Decidable inside] :
    (if halfOpen && decide atStop then false else if ¬inside then false else counted) = true ↔
      inside ∧ (halfOpen = true → ¬atStop) ∧ counted = true := by
  by_cases hstop : halfOpen = true ∧ atStop
  · simp [hstop.1, hstop.2]
  · by_cases hinside : inside
    · simp [hstop, hinside]
      tauto
    · simp [hinside]

/-! ### Ranges with years -/

/-- A range with years compares a date with its ends and asks how far the date is from its start. -/
theorem hitsFull_eq (r : Range DateValue) (year : Int) (d : Date) :
    r.hitsFull year d =
      if r.halfOpen && DateValue.ofDate d = r.stop then false
      else if ¬ (r.start ≤ DateValue.ofDate d ∧ DateValue.ofDate d ≤ r.stop) then false
      else r.interval = 1 || r.onInterval (Date.of? year r.start.month r.start.day) d := by
  unfold hitsFull
  cases Date.of? year r.start.month r.start.day <;> rfl

/-- **A range with years hits every so many days from its start to its end.** -/
theorem hitsFull_iff {b : Date} (ha : DateValue.ofDate a = r.start)
    (hb : DateValue.ofDate b = r.stop) :
    r.hitsDate d = true ↔
      (a ≤ d ∧ d ≤ b) ∧ (r.halfOpen = true → d ≠ b) ∧ (r.interval : Int) ∣ a.daysUntil d := by
  have hanchor : Date.of? a.year r.start.month r.start.day = some a := by
    rw [← ha]
    exact a.of?_self
  have hyear : r.start.year = some a.year := by rw [← ha]; rfl
  unfold hitsDate
  rw [hyear]
  dsimp only
  rw [hitsFull_eq, hanchor, date_test_eq_true_iff, onInterval_iff, ← ha, ← hb, DateValue.ofDate_le_ofDate,
    DateValue.ofDate_le_ofDate, DateValue.ofDate_inj]

end Range

/-! ### Occurrences of ranges without years -/

/-- Between two bounds of one year are the days of that year between them. -/
theorem between_in_year {α : Type} [LinearOrder α] {start stop m : α} {y z : Int} :
    toLex (y, start) ≤ toLex (z, m) ∧ toLex (z, m) ≤ toLex (y, stop) ↔
      y = z ∧ start ≤ m ∧ m ≤ stop := by
  rw [Prod.Lex.toLex_le_toLex, Prod.Lex.toLex_le_toLex]
  dsimp only
  constructor
  · rintro ⟨hlt | ⟨rfl, hstart⟩, hlt' | ⟨heq, hstop⟩⟩
    · omega
    · omega
    · omega
    · exact ⟨rfl, hstart, hstop⟩
  · rintro ⟨rfl, hstart, hstop⟩
    exact ⟨Or.inr ⟨rfl, hstart⟩, Or.inr ⟨rfl, hstop⟩⟩

/-- Between a bound of one year and one of the next are the later days of the one and the earlier
days of the other. -/
theorem between_in_years {α : Type} [LinearOrder α] {start stop m : α} {y z : Int} :
    toLex (y, start) ≤ toLex (z, m) ∧ toLex (z, m) ≤ toLex (y + 1, stop) ↔
      y = z ∧ start ≤ m ∨ y = z - 1 ∧ m ≤ stop := by
  rw [Prod.Lex.toLex_le_toLex, Prod.Lex.toLex_le_toLex]
  dsimp only
  constructor
  · rintro ⟨hlt | ⟨rfl, hstart⟩, hlt' | ⟨heq, hstop⟩⟩
    · omega
    · exact Or.inr ⟨by omega, hstop⟩
    · exact Or.inl ⟨rfl, hstart⟩
    · omega
  · rintro (⟨rfl, hstart⟩ | ⟨rfl, hstop⟩)
    · exact ⟨Or.inr ⟨rfl, hstart⟩, Or.inl (by omega)⟩
    · exact ⟨Or.inl (by omega), Or.inr ⟨by omega, hstop⟩⟩

namespace Range

variable {r : Range DateValue} {d a : Date} {y : Int}

/-- The year in which the occurrence that begins in a year ends: the next one if the end comes
before the start within a year. -/
def stopYear (r : Range DateValue) (y : Int) : Int :=
  if r.stop.monthDay < r.start.monthDay then y + 1 else y

/-- **The date belongs to the occurrence that begins in a year.**  Years, months and days are
compared in this order, so the bounds need not be days of these years. -/
structure Occurs (r : Range DateValue) (y : Int) (d : Date) : Prop where
  from_start : toLex (y, r.start.monthDay) ≤ toLex (d.year, d.monthDay)
  to_stop : toLex (d.year, d.monthDay) ≤ toLex (r.stopYear y, r.stop.monthDay)
  ne_stop : r.halfOpen = true →
    toLex (d.year, d.monthDay) ≠ toLex (r.stopYear y, r.stop.monthDay)

theorem IsYearless.year_eq (h : r.IsYearless) : r.start.year = none ∧ r.stop.year = none :=
  ⟨DateValue.year_eq_none h.1, DateValue.year_eq_none h.2⟩

theorem isSplit_iff (h : r.IsYearless) :
    r.isSplit = true ↔ r.stop.monthDay < r.start.monthDay := by
  unfold isSplit
  rw [decide_eq_true_eq, DateValue.lt_iff_of_yearless h.year_eq.2 h.year_eq.1]

/-- The date has the month and day of the end. -/
theorem yearlessOfDate_eq_stop_iff (h : r.IsYearless) :
    DateValue.yearlessOfDate d = r.stop ↔ d.monthDay = r.stop.monthDay :=
  DateValue.yearlessOfDate_eq_iff h.year_eq.2

theorem occurs_def :
    r.Occurs y d ↔
      (toLex (y, r.start.monthDay) ≤ toLex (d.year, d.monthDay) ∧
          toLex (d.year, d.monthDay) ≤ toLex (r.stopYear y, r.stop.monthDay)) ∧
        (r.halfOpen = true →
          toLex (d.year, d.monthDay) ≠ toLex (r.stopYear y, r.stop.monthDay)) :=
  ⟨fun h => ⟨⟨h.from_start, h.to_stop⟩, h.ne_stop⟩, fun h => ⟨h.1.1, h.1.2, h.2⟩⟩

/-- An occurrence within one year. -/
theorem occurs_iff_of_not_split (h : ¬r.stop.monthDay < r.start.monthDay) :
    r.Occurs y d ↔
      (y = d.year ∧ r.start.monthDay ≤ d.monthDay ∧ d.monthDay ≤ r.stop.monthDay) ∧
        (r.halfOpen = true → d.monthDay ≠ r.stop.monthDay) := by
  rw [occurs_def, stopYear, if_neg h, between_in_year]
  refine and_congr_right fun hin => forall_congr' fun _ => not_congr ?_
  constructor
  · intro heq
    exact (Prod.ext_iff.1 (toLex.injective heq)).2
  · intro heq
    rw [hin.1, heq]

/-- An occurrence that reaches into the next year. -/
theorem occurs_iff_of_split (h : r.stop.monthDay < r.start.monthDay) :
    r.Occurs y d ↔
      (y = d.year ∧ r.start.monthDay ≤ d.monthDay ∨
          y = d.year - 1 ∧ d.monthDay ≤ r.stop.monthDay) ∧
        (r.halfOpen = true → d.monthDay ≠ r.stop.monthDay) := by
  rw [occurs_def, stopYear, if_pos h, between_in_years]
  refine and_congr_right fun hin => forall_congr' fun _ => not_congr ?_
  constructor
  · intro heq
    exact (Prod.ext_iff.1 (toLex.injective heq)).2
  · intro heq
    rcases hin with ⟨-, hstart⟩ | ⟨hyear, -⟩
    · -- in the year of the start all days of the occurrence come after the end
      exact absurd (heq ▸ hstart) (not_le.2 h)
    · rw [hyear, Int.sub_add_cancel, heq]

/-- **A date belongs to at most one occurrence**, which begins in the year in which the test looks
for the day to count from. -/
theorem occurs_iff (h : r.IsYearless) :
    r.Occurs y d ↔ y = r.anchorYear d ∧
      (if r.isSplit then
          r.start ≤ DateValue.yearlessOfDate d ∨ DateValue.yearlessOfDate d ≤ r.stop
        else r.start ≤ DateValue.yearlessOfDate d ∧ DateValue.yearlessOfDate d ≤ r.stop) ∧
        (r.halfOpen = true → DateValue.yearlessOfDate d ≠ r.stop) := by
  have hstart : r.start ≤ DateValue.yearlessOfDate d ↔ r.start.monthDay ≤ d.monthDay :=
    DateValue.le_iff_of_yearless h.year_eq.1 rfl
  have hstop : DateValue.yearlessOfDate d ≤ r.stop ↔ d.monthDay ≤ r.stop.monthDay :=
    DateValue.le_iff_of_yearless rfl h.year_eq.2
  have hbefore : DateValue.yearlessOfDate d < r.start ↔ d.monthDay < r.start.monthDay :=
    DateValue.lt_iff_of_yearless rfl h.year_eq.1
  unfold anchorYear
  by_cases hsplit : r.stop.monthDay < r.start.monthDay
  · rw [occurs_iff_of_split hsplit, (isSplit_iff h).2 hsplit]
    simp only [hstart, hstop, hbefore, yearlessOfDate_eq_stop_iff h, ne_eq, ← and_assoc,
      Bool.true_and, decide_eq_true_eq, if_true]
    refine and_congr_left' ?_
    constructor
    · rintro (⟨rfl, hin⟩ | ⟨rfl, hin⟩)
      · exact ⟨(if_neg (not_lt.2 hin)).symm, Or.inl hin⟩
      · exact ⟨(if_pos (lt_of_le_of_lt hin hsplit)).symm, Or.inr hin⟩
    · rintro ⟨rfl, hin⟩
      by_cases hlt : d.monthDay < r.start.monthDay
      · exact Or.inr ⟨if_pos hlt, hin.resolve_left (not_le.2 hlt)⟩
      · exact Or.inl ⟨if_neg hlt, not_lt.1 hlt⟩
  · have hfalse : r.isSplit = false := by
      rw [← Bool.not_eq_true, isSplit_iff h]
      exact hsplit
    rw [occurs_iff_of_not_split hsplit, hfalse]
    simp only [hstart, hstop, yearlessOfDate_eq_stop_iff h, ne_eq, and_assoc, Bool.false_and,
      Bool.false_eq_true, if_false]

end Range

/-! ### Counting from the start of an occurrence -/

/-- The day of a year from which an occurrence that begins in it is counted: its first day, or 28
February if it begins on a 29th that the year has not. -/
structure DateValue.CountedFrom (start : DateValue) (y : Int) (a : Date) : Prop where
  year : a.year = y
  month : a.month = start.month
  day : a.day = if start.month = 2 ∧ start.day = 29 ∧ isLeap y = false then 28 else start.day

namespace DateValue

variable {start : DateValue} {y : Int} {a : Date}

theorem isCalendarLeap_eq (hy : -9999 ≤ y) (hy' : y ≤ 9999) : isCalendarLeap y = isLeap y := by
  have hfirst : IsDate y 1 1 := by
    have := monthLength_pos y 1
    exact ⟨⟨hy, hy'⟩, by decide, by decide, by omega⟩
  unfold isCalendarLeap Date.of?
  rw [dif_pos hfirst]
  rfl

/-- In the years of the calendar the test counts from the day meant. -/
theorem anchor?_eq_some_iff (hy : -9999 ≤ y) (hy' : y ≤ 9999) :
    start.anchor? y = some a ↔ start.CountedFrom y a := by
  unfold anchor?
  rw [isCalendarLeap_eq hy hy']
  by_cases hleap : start.month = 2 ∧ start.day = 29 ∧ isLeap y = false
  · rw [if_pos hleap, Date.of?_eq_some_iff]
    constructor
    · rintro ⟨hyear, hmonth, hday⟩
      exact ⟨hyear, hmonth.trans hleap.1.symm, hday.trans (if_pos hleap).symm⟩
    · rintro ⟨hyear, hmonth, hday⟩
      exact ⟨hyear, hmonth.trans hleap.1, hday.trans (if_pos hleap)⟩
  · rw [if_neg hleap, Date.of?_eq_some_iff]
    constructor
    · rintro ⟨hyear, hmonth, hday⟩
      exact ⟨hyear, hmonth, hday.trans (if_neg hleap).symm⟩
    · rintro ⟨hyear, hmonth, hday⟩
      exact ⟨hyear, hmonth, hday.trans (if_neg hleap)⟩

/-- A date without a year is a day of every year but for a 29 February in a common year. -/
theorem IsNameable.day_le (h : start.IsNameable) (hyearless : start.year = none)
    (hleap : ¬(start.month = 2 ∧ start.day = 29 ∧ isLeap y = false)) :
    start.day ≤ monthLength y start.month := by
  have hday := h.2.2.2
  rw [hyearless, Option.getD_none] at hday
  by_cases hmonth : start.month = 2
  · rw [hmonth] at hday ⊢
    have hlong : start.day ≤ 29 := hday
    unfold monthLength
    rw [if_pos rfl]
    split
    · exact hlong
    · rename_i hcommon
      rw [Bool.not_eq_true] at hcommon
      have hne : start.day ≠ 29 := fun heq => hleap ⟨hmonth, heq, hcommon⟩
      omega
  · unfold monthLength at hday ⊢
    rw [if_neg hmonth] at hday ⊢
    exact hday

/-- There is a day to count from in every year of the calendar. -/
theorem IsNameable.exists_countedFrom (h : start.IsNameable) (hyearless : start.year = none)
    (hy : -9999 ≤ y) (hy' : y ≤ 9999) : ∃ a, start.CountedFrom y a := by
  by_cases hleap : start.month = 2 ∧ start.day = 29 ∧ isLeap y = false
  · have hlong := monthLength_pos y start.month
    exact ⟨⟨y, start.month, 28, ⟨hy, hy'⟩, h.2.1, by omega⟩, rfl, rfl, (if_pos hleap).symm⟩
  · have hday := h.day_le hyearless hleap
    exact ⟨⟨y, start.month, start.day, ⟨hy, hy'⟩, h.2.1, h.2.2.1, hday⟩, rfl, rfl,
      (if_neg hleap).symm⟩

end DateValue

/-! ### Ranges of dates -/

namespace Range

variable {r : Range DateValue} {d a : Date} {y : Int}

/-- **A range without years hits every so many days of each of its occurrences.** -/
theorem hitsYearly_iff (h : r.IsYearless) (hstart : r.start.IsNameable) (hd : -9999 < d.year) :
    r.hitsDate d = true ↔
      ∃ y a, r.Occurs y d ∧ r.start.CountedFrom y a ∧ (r.interval : Int) ∣ a.daysUntil d := by
  have hbounds := r.anchorYear_bounds d
  have hcalendar := d.isDate.1
  have hyear : -9999 ≤ r.anchorYear d ∧ r.anchorYear d ≤ 9999 := by omega
  have hcounted (b : Date) : r.start.anchor? (r.anchorYear d) = some b ↔
      r.start.CountedFrom (r.anchorYear d) b := DateValue.anchor?_eq_some_iff hyear.1 hyear.2
  obtain ⟨a, ha⟩ := hstart.exists_countedFrom h.year_eq.1 hyear.1 hyear.2
  unfold hitsDate
  rw [h.year_eq.1]
  dsimp only
  rw [hitsYearly_eq, date_test_eq_true_iff, (hcounted a).2 ha, onInterval_iff]
  constructor
  · rintro ⟨hinside, hstop, hdvd⟩
    exact ⟨r.anchorYear d, a, (occurs_iff h).2 ⟨rfl, hinside, hstop⟩, ha, hdvd⟩
  · rintro ⟨y, b, hoccurs, hb, hdvd⟩
    obtain ⟨rfl, hinside, hstop⟩ := (occurs_iff h).1 hoccurs
    -- the day to count from is determined
    have hsame : a = b :=
      Option.some.inj (((hcounted a).2 ha).symm.trans ((hcounted b).2 hb))
    exact ⟨hinside, hstop, hsame ▸ hdvd⟩

/-- Where an occurrence begins on a 29 February that its year has not, the day it is counted from
does not belong to it. -/
theorem not_occurs_of_countedFrom (hmonth : r.start.month = 2) (hday : r.start.day = 29)
    (hcommon : isLeap y = false) (ha : r.start.CountedFrom y a) : ¬r.Occurs y a := by
  intro h
  have hbefore := ha.day
  rw [if_pos ⟨hmonth, hday, hcommon⟩] at hbefore
  have hstart := h.from_start
  unfold DateValue.monthDay Date.monthDay at hstart
  rw [Prod.Lex.toLex_le_toLex, Prod.Lex.toLex_le_toLex, ha.year, ha.month, hbefore, hday] at hstart
  dsimp only at hstart
  omega

/-- **Ranges of dates hit every so many days of each of their occurrences.**  A range with years has
one, from its start to its end.  A range without years has one in each year, which reaches into the
next year if the end comes before the start; a day belongs to one of them at most, and is counted
from the start of that one, or from 28 February if that is a 29th which its year has not. -/
theorem hits_progression (h : r.WellFormedDates) (hd : -9999 < d.year) :
    (r.start.isFull = true →
      (r.hitsDate d = true ↔ ∃ a b : Date,
        (DateValue.ofDate a = r.start ∧ DateValue.ofDate b = r.stop) ∧ (a ≤ d ∧ d ≤ b) ∧
          (r.halfOpen = true → d ≠ b) ∧ (r.interval : Int) ∣ a.daysUntil d)) ∧
      (r.start.isFull = false →
        (r.hitsDate d = true ↔ ∃ y a, r.Occurs y d ∧ r.start.CountedFrom y a ∧
          (r.interval : Int) ∣ a.daysUntil d) ∧
        ∀ y a, r.start.month = 2 → r.start.day = 29 → isLeap y = false →
          r.start.CountedFrom y a → ¬r.Occurs y a) := by
  refine ⟨fun hfull => ?_, fun hfull => ⟨?_, fun y a => not_occurs_of_countedFrom⟩⟩
  · obtain ⟨a, ha⟩ := h.start.exists_ofDate hfull
    obtain ⟨b, hb⟩ := h.stop.exists_ofDate (h.bound.1 ▸ hfull)
    rw [hitsFull_iff ha hb]
    constructor
    · intro hhit
      exact ⟨a, b, ⟨ha, hb⟩, hhit⟩
    · rintro ⟨a', b', ⟨ha', hb'⟩, hhit⟩
      rw [DateValue.ofDate_inj.1 (ha'.trans ha.symm), DateValue.ofDate_inj.1 (hb'.trans hb.symm)]
        at hhit
      exact hhit
  · exact hitsYearly_iff ⟨hfull, h.bound.1 ▸ hfull⟩ h.start hd

/-- The fifteenth day after the last of January, and the second of January in an occurrence that
began on the day after 28 February of the common year before. -/
theorem hits_progression_over_leap_days :
    let full := Range.of (DateValue.full 2024 1 31) (.full 2024 3 1) true 15
    let yearly := Range.of (DateValue.yearless 2 29) (.yearless 1 15) true 7
    let d : Date := ⟨2024, 2, 15, by decide⟩
    let e : Date := ⟨2024, 1, 2, by decide⟩
    ((full.WellFormedDates ∧ full.start.isFull = true ∧ -9999 < d.year) ∧
        full.hitsDate d = true ∧ ∃ a b : Date,
          (DateValue.ofDate a = full.start ∧ DateValue.ofDate b = full.stop) ∧ (a ≤ d ∧ d ≤ b) ∧
            (full.halfOpen = true → d ≠ b) ∧ (full.interval : Int) ∣ a.daysUntil d) ∧
      (yearly.WellFormedDates ∧ yearly.start.isFull = false ∧ -9999 < e.year) ∧
        yearly.hitsDate e = true ∧ (∃ y a, yearly.Occurs y e ∧ yearly.start.CountedFrom y a ∧
          (yearly.interval : Int) ∣ a.daysUntil e) ∧
        ∀ a, yearly.start.CountedFrom 2023 a → ¬yearly.Occurs 2023 a := by
  intro full yearly d e
  have hfull : full.WellFormedDates := by decide
  have hyearly : yearly.WellFormedDates := by decide
  have hhit : full.hitsDate d = true := by decide
  have hhit' : yearly.hitsDate e = true := by decide
  obtain ⟨hiff, hnot⟩ := (hits_progression (d := e) hyearly (by decide)).2 rfl
  exact ⟨⟨⟨hfull, rfl, by decide⟩, hhit,
      ((hits_progression (d := d) hfull (by decide)).1 rfl).1 hhit⟩,
    ⟨hyearly, rfl, by decide⟩, hhit', hiff.1 hhit', fun a => hnot 2023 a rfl rfl rfl⟩

end Range

end Timetable

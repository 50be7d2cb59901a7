/-
**Days of the month counted through the end of a month.**

A range of days of the month that wraps around hits the last days of one month and the first days of
the next.  The two halves are tested on different dates with different month lengths: the first half
knows only the month it is in, and the second one adds the length of the month before.  With a start
counted from the beginning of the month both halves count from the same day, so that they are one
progression through the real end of the month, over turns of the year and leap days alike.

A start counted back from the end of the month is looked up in the month of the date that is tested.
In the first days of a month this is the start that the range has at the end of *that* month, moved
into the month before, and not the start it had there.  If the two months differ in length the two
halves count from different days, and two days in a row may be hit whatever the interval.

Main definitions:

* `Date.monthNumber` — months counted through the years;
* `Group.OnlyDaysOfMonth` — a group whose only rule for dates is a range of days of the month.

Main results:

* `Date.daysUntil_of_nextMonth`, `Date.previousMonthLength?_of_nextMonth` — from a month to the next;
* `Group.OnlyDaysOfMonth.admitsDate_iff_before_wrap`, `Group.OnlyDaysOfMonth.admitsDate_iff_behind_wrap`
  — **the two halves of a range that wraps around**;
* `Group.OnlyDaysOfMonth.one_progression_from_day` — a start counted from the beginning of the month;
* `Group.OnlyDaysOfMonth.progressions_from_month_end` — one counted back from its end;
* `Group.OnlyDaysOfMonth.not_one_progression_from_month_end` — the two halves of the latter do not
  fit together.
-/

import Timetable.Proofs.DayNumber
import Timetable.Proofs.DialWalk
import Timetable.Schedule

set_option relaxedAutoImplicit false
set_option autoImplicit false

namespace Timetable

/-! ### From a month to the next -/

namespace Date

variable {d e : Date}

/-- The months before the one a date is in, counted from January of the year 0. -/
def monthNumber (d : Date) : Int := d.year * 12 + (d.month - 1)

/-- The first month of the calendar, the only one with no month before it. -/
def firstMonthNumber : Int := -9999 * 12

theorem monthNumber_eq_iff : e.monthNumber = d.monthNumber ↔ e.year = d.year ∧ e.month = d.month := by
  have := d.isDate.2.1
  have := e.isDate.2.1
  unfold monthNumber
  omega

/-- The next month is in the same year or is the January after a December. -/
theorem monthNumber_eq_add_one_iff :
    e.monthNumber = d.monthNumber + 1 ↔
      d.month < 12 ∧ e.year = d.year ∧ e.month = d.month + 1 ∨
        d.month = 12 ∧ e.year = d.year + 1 ∧ e.month = 1 := by
  have := d.isDate.2.1
  have := e.isDate.2.1
  unfold monthNumber
  omega

theorem daysUntil_of_sameMonth (h : e.monthNumber = d.monthNumber) :
    d.daysUntil e = e.day - d.day := by
  obtain ⟨hyear, hmonth⟩ := monthNumber_eq_iff.1 h
  unfold daysUntil dayNumber
  rw [hyear, hmonth]
  omega

theorem le_iff_of_sameMonth (h : e.monthNumber = d.monthNumber) : d ≤ e ↔ d.day ≤ e.day := by
  have hcount := daysUntil_of_sameMonth h
  unfold daysUntil at hcount
  rw [le_def]
  omega

theorem monthLength_of_sameMonth (h : e.monthNumber = d.monthNumber) :
    e.monthLength = d.monthLength := by
  obtain ⟨hyear, hmonth⟩ := monthNumber_eq_iff.1 h
  rw [monthLength_eq, monthLength_eq, hyear, hmonth]

/-- To a date of the next month one goes to the end of the month and on from there. -/
theorem daysUntil_of_nextMonth (h : e.monthNumber = d.monthNumber + 1) :
    d.daysUntil e = d.monthLength - d.day + e.day := by
  rw [monthLength_eq]
  unfold daysUntil dayNumber
  rcases monthNumber_eq_add_one_iff.1 h with ⟨hlt, hyear, hmonth⟩ | ⟨hlast, hyear, hmonth⟩
  · have hsucc := daysBeforeMonth_succ d.year d.one_le_month hlt
    rw [hyear, hmonth]
    omega
  · have hfirst : daysBeforeMonth (d.year + 1) 1 = 0 := rfl
    have hsucc := daysBeforeYear_succ d.year
    have hdecember := daysBeforeMonth_december d.year
    rw [hyear, hmonth, hlast, monthLength_december]
    omega

theorem monthLength?_eq {year month : Int} (hyear : -9999 ≤ year ∧ year ≤ 9999)
    (hmonth : 1 ≤ month ∧ month ≤ 12) :
    monthLength? year month = some (Timetable.monthLength year month) := by
  have hlong := monthLength_pos year month
  have hfirst : of? year month 1 = some ⟨year, month, 1, hyear, hmonth, by omega⟩ :=
    of?_eq_some_iff.2 ⟨rfl, rfl, rfl⟩
  unfold monthLength?
  rw [hfirst]
  rfl

/-- The month before that of a date of the next month is the month of the date. -/
theorem previousMonthLength?_of_nextMonth (h : e.monthNumber = d.monthNumber + 1) :
    e.previousMonthLength? = some d.monthLength := by
  have hcalendar := d.isDate.1
  unfold previousMonthLength?
  rw [monthLength_eq]
  rcases monthNumber_eq_add_one_iff.1 h with ⟨hlt, hyear, hmonth⟩ | ⟨hlast, hyear, hmonth⟩
  · have hone := d.one_le_month
    rw [if_pos (by omega), hyear, hmonth, Int.add_sub_cancel, monthLength?_eq hcalendar (by omega)]
  · rw [if_neg (by omega), hyear, hlast, Int.add_sub_cancel, monthLength?_eq hcalendar (by decide)]

/-- All months but the first of the calendar have one before them. -/
theorem exists_previousMonthLength? (h : firstMonthNumber < d.monthNumber) :
    ∃ length, d.previousMonthLength? = some length := by
  have hcalendar := d.isDate.1
  have hmonth := d.isDate.2.1
  unfold firstMonthNumber monthNumber at h
  unfold previousMonthLength?
  split
  · exact ⟨_, monthLength?_eq hcalendar (by omega)⟩
  · exact ⟨_, monthLength?_eq (by omega) (by decide)⟩

end Date

/-! ### Days counted back -/

namespace Range

variable {r : Range Int}

theorem start_countedFromStart_of_nonneg (h : 0 ≤ r.start) (length : Int) :
    (r.countedFromStart length).start = r.start :=
  if_neg (not_lt.2 h)

theorem start_countedFromStart_of_neg (h : r.start < 0) (length : Int) :
    (r.countedFromStart length).start = length + r.start + 1 :=
  if_pos h

theorem stop_countedFromStart_of_nonneg (h : 0 ≤ r.stop) (length : Int) :
    (r.countedFromStart length).stop = r.stop :=
  if_neg (not_lt.2 h)

@[simp] theorem halfOpen_countedFromStart (r : Range Int) (length : Int) :
    (r.countedFromStart length).halfOpen = r.halfOpen := rfl

@[simp] theorem interval_countedFromStart (r : Range Int) (length : Int) :
    (r.countedFromStart length).interval = r.interval := rfl

end Range

/-! ### Groups with a range of days of the month -/

namespace Group

/-- The only rule for dates is one range of days of the month to include. -/
structure OnlyDaysOfMonth (g : Group) (r : Range Int) : Prop where
  dates : g.dates = {}
  daysOfMonth : g.daysOfMonth = { included := [r] }
  daysOfWeek : g.daysOfWeek = {}

namespace OnlyDaysOfMonth

variable {g : Group} {r : Range Int} {a d : Date} {length : Int}

/-- The group asks the range, with the days of the month before added behind its wrap. -/
theorem admitsDate_iff (hg : g.OnlyDaysOfMonth r) (h : d.previousMonthLength? = some length) :
    g.admitsDate d = true ↔ (r.countedFromStart d.monthLength).hits length d.day = true := by
  have hempty : g.daysOfMonth.isEmpty = false := by rw [hg.daysOfMonth]; rfl
  have hdates : (g.dates.admits fun r => r.hitsDate d) = true := by rw [hg.dates]; rfl
  have hweek : g.admitsDayOfWeek d = true := by unfold admitsDayOfWeek; rw [hg.daysOfWeek]; rfl
  unfold admitsDate admitsDayOfMonth
  rw [hdates, hweek, hempty, h, hg.daysOfMonth]
  simp [Rules.admits]

section Wrap

variable (hg : g.OnlyDaysOfMonth r) (hstop : 0 ≤ r.stop)
include hg hstop

/-- The last days of a month are counted from the start that the range has in that month. -/
theorem admitsDate_iff_before_wrap (hlate : Date.firstMonthNumber < d.monthNumber)
    (hsplit : r.stop < (r.countedFromStart d.monthLength).start)
    (hd : (r.countedFromStart d.monthLength).start ≤ d.day) :
    g.admitsDate d = true ↔
      (r.interval : Int) ∣ d.day - (r.countedFromStart d.monthLength).start := by
  obtain ⟨length, hlength⟩ := Date.exists_previousMonthLength? hlate
  rw [← Range.stop_countedFromStart_of_nonneg hstop d.monthLength] at hsplit
  rw [hg.admitsDate_iff hlength, Range.hits_before_wrap hsplit hd,
    Range.interval_countedFromStart]

/-- The first days of a month are counted from the day of the month before that has the number of the
start in the month itself. -/
theorem admitsDate_iff_behind_wrap (hmonth : d.monthNumber = a.monthNumber + 1)
    (hsplit : r.stop < (r.countedFromStart d.monthLength).start) (hd : d.day ≤ r.stop) :
    g.admitsDate d = true ↔ (r.halfOpen = true → d.day ≠ r.stop) ∧
      (r.interval : Int) ∣
        a.daysUntil d + (a.day - (r.countedFromStart d.monthLength).start) := by
  have hcount : d.day + a.monthLength - (r.countedFromStart d.monthLength).start =
      a.daysUntil d + (a.day - (r.countedFromStart d.monthLength).start) := by
    rw [Date.daysUntil_of_nextMonth hmonth]
    omega
  rw [← Range.stop_countedFromStart_of_nonneg hstop d.monthLength] at hsplit hd
  rw [hg.admitsDate_iff (Date.previousMonthLength?_of_nextMonth hmonth),
    Range.hits_behind_wrap hsplit hd, Range.stop_countedFromStart_of_nonneg hstop,
    Range.interval_countedFromStart, Range.halfOpen_countedFromStart, hcount]

end Wrap

/-- **A start counted from the beginning of the month gives one progression through its end.**  Let
the month have the day of the start.  Its days from there on and the first days of the next month, up
to the stop, are admitted every so many days from that one day, except for the stop of a half-open
range. -/
theorem one_progression_from_day (hg : g.OnlyDaysOfMonth r) (hstop : 1 ≤ r.stop)
    (hsplit : r.stop < r.start) (hlate : Date.firstMonthNumber < a.monthNumber)
    (ha : a.day = r.start) :
    (∀ d : Date, d.monthNumber = a.monthNumber → r.start ≤ d.day →
        (g.admitsDate d = true ↔ (r.interval : Int) ∣ a.daysUntil d)) ∧
      ∀ d : Date, d.monthNumber = a.monthNumber + 1 → d.day ≤ r.stop →
        (g.admitsDate d = true ↔
          (r.interval : Int) ∣ a.daysUntil d ∧ ¬(r.halfOpen = true ∧ d.day = r.stop)) := by
  have hstart : ∀ length, (r.countedFromStart length).start = r.start :=
    Range.start_countedFromStart_of_nonneg (by omega)
  constructor
  · intro d hmonth hd
    rw [hg.admitsDate_iff_before_wrap (by omega) (hmonth ▸ hlate) (by rwa [hstart])
      (by rwa [hstart]), hstart, Date.daysUntil_of_sameMonth hmonth, ha]
  · intro d hmonth hd
    rw [hg.admitsDate_iff_behind_wrap (by omega) hmonth (by rwa [hstart]) hd, hstart, ha, sub_self,
      add_zero, and_comm, not_and]

/-- Every fourth day from the 25th of a leap February on: the 29th is one of them, and the fourth of
March would be the next if it were not left out. -/
theorem one_progression_over_leap_day :
    let r : Range Int := Range.of 25 4 true 4
    let g : Group := { daysOfMonth.included := [r] }
    let a : Date := ⟨2024, 2, 25, by decide⟩
    let d : Date := ⟨2024, 2, 29, by decide⟩
    let e : Date := ⟨2024, 3, 4, by decide⟩
    ((g.OnlyDaysOfMonth r ∧ 1 ≤ r.stop ∧ r.stop < r.start ∧
          Date.firstMonthNumber < a.monthNumber ∧ a.day = r.start) ∧
        (d.monthNumber = a.monthNumber ∧ r.start ≤ d.day) ∧
          e.monthNumber = a.monthNumber + 1 ∧ e.day ≤ r.stop) ∧
      (g.admitsDate d = true ∧ (r.interval : Int) ∣ a.daysUntil d) ∧
        ¬g.admitsDate e = true ∧ (r.interval : Int) ∣ a.daysUntil e := by
  intro r g a d e
  have hg : g.OnlyDaysOfMonth r := ⟨rfl, rfl, rfl⟩
  obtain ⟨hsame, hnext⟩ := one_progression_from_day (a := a) hg (by decide) (by decide)
    (by decide) rfl
  have hd : (r.interval : Int) ∣ a.daysUntil d := by decide
  refine ⟨⟨⟨hg, by decide, by decide, by decide, rfl⟩, ⟨by decide, by decide⟩, by decide,
    by decide⟩, ⟨(hsame d (by decide) (by decide)).2 hd, hd⟩, ?_, by decide⟩
  rw [hnext e (by decide) (by decide)]
  exact fun h => h.2 ⟨rfl, rfl⟩

/-- **A start counted back from the end of the month gives one progression in each month.**  Let the
start come after the stop in both months.  The last days of the first month are admitted every so
many days from its start, and the first days of the next one every so many days from a day that is
earlier by the difference of the two lengths.  They go on with the same progression where the
interval divides this difference. -/
theorem progressions_from_month_end (hg : g.OnlyDaysOfMonth r) (hstart : r.start < 0)
    (hstop : 1 ≤ r.stop) (hlate : Date.firstMonthNumber < a.monthNumber)
    (ha : a.day = a.monthLength + r.start + 1) (hsplit : r.stop < a.day) :
    (∀ d : Date, d.monthNumber = a.monthNumber → a ≤ d →
        (g.admitsDate d = true ↔ (r.interval : Int) ∣ a.daysUntil d)) ∧
      ∀ d : Date, d.monthNumber = a.monthNumber + 1 → r.stop < d.monthLength + r.start + 1 →
        d.day ≤ r.stop → (r.halfOpen = true → d.day ≠ r.stop) →
          (g.admitsDate d = true ↔
              (r.interval : Int) ∣ a.daysUntil d + (a.monthLength - d.monthLength)) ∧
            ((r.interval : Int) ∣ a.monthLength - d.monthLength →
              (g.admitsDate d = true ↔ (r.interval : Int) ∣ a.daysUntil d)) := by
  have hback : ∀ length, (r.countedFromStart length).start = length + r.start + 1 :=
    Range.start_countedFromStart_of_neg hstart
  constructor
  · intro d hmonth hd
    have hlength := Date.monthLength_of_sameMonth hmonth
    have hday := (Date.le_iff_of_sameMonth hmonth).1 hd
    rw [hg.admitsDate_iff_before_wrap (by omega) (hmonth ▸ hlate) (by rw [hback]; omega)
      (by rw [hback]; omega), hback, hlength, ← ha,
      Date.daysUntil_of_sameMonth hmonth]
  · intro d hmonth hsplit' hd hne
    have hdiff : a.day - (d.monthLength + r.start + 1) = a.monthLength - d.monthLength := by omega
    have hiff : g.admitsDate d = true ↔
        (r.interval : Int) ∣ a.daysUntil d + (a.monthLength - d.monthLength) := by
      rw [hg.admitsDate_iff_behind_wrap (by omega) hmonth (by rwa [hback]) hd, hback, hdiff]
      exact and_iff_right hne
    refine ⟨hiff, fun hdvd => ?_⟩
    rw [hiff, Int.dvd_add_left hdvd]

/-- Every other day from the third last one of the month on.  The last of January is the second day
after the 29th; the first of February is counted from the 26th of January, the day with the number of
the third last day of February. -/
theorem progressions_into_short_month :
    let r : Range Int := Range.of (-3) 2 false 2
    let g : Group := { daysOfMonth.included := [r] }
    let a : Date := ⟨2023, 1, 29, by decide⟩
    let d : Date := ⟨2023, 1, 31, by decide⟩
    let e : Date := ⟨2023, 2, 1, by decide⟩
    ((g.OnlyDaysOfMonth r ∧ r.start < 0 ∧ 1 ≤ r.stop ∧ Date.firstMonthNumber < a.monthNumber ∧
          a.day = a.monthLength + r.start + 1 ∧ r.stop < a.day) ∧
        (d.monthNumber = a.monthNumber ∧ a ≤ d) ∧
          e.monthNumber = a.monthNumber + 1 ∧ r.stop < e.monthLength + r.start + 1 ∧
            e.day ≤ r.stop ∧ (r.halfOpen = true → e.day ≠ r.stop)) ∧
      (g.admitsDate d = true ∧ (r.interval : Int) ∣ a.daysUntil d) ∧
        g.admitsDate e = true ∧
          (r.interval : Int) ∣ a.daysUntil e + (a.monthLength - e.monthLength) := by
  intro r g a d e
  have hg : g.OnlyDaysOfMonth r := ⟨rfl, rfl, rfl⟩
  obtain ⟨hsame, hnext⟩ := progressions_from_month_end (a := a) hg (by decide) (by decide)
    (by decide) (by decide) (by decide)
  have hd : (r.interval : Int) ∣ a.daysUntil d := by decide
  have he : (r.interval : Int) ∣ a.daysUntil e + (a.monthLength - e.monthLength) := by decide
  have hiff := hnext e (by decide) (by decide) (by decide) nofun
  exact ⟨⟨⟨hg, by decide, by decide, by decide, by decide, by decide⟩, ⟨by decide, by decide⟩,
    by decide, by decide, by decide, nofun⟩, ⟨(hsame d (by decide) (by decide)).2 hd, hd⟩,
    hiff.1.2 he, he⟩

/-- **The two halves are not one progression.**  The first of February comes three days after the
start in January, which is no multiple of two days, and is admitted, on the day after the last of
January. -/
theorem not_one_progression_from_month_end :
    let r : Range Int := Range.of (-3) 2 false 2
    let g : Group :=
      { daysOfMonth.included := [r]
        hours.included := [Range.single 0]
        minutes.included := [Range.single 0]
        seconds.included := [Range.single 0] }
    let a : Date := ⟨2023, 1, 29, by decide⟩
    let d : Date := ⟨2023, 1, 31, by decide⟩
    let e : Date := ⟨2023, 2, 1, by decide⟩
    (groupsOf "dom(-3..2%2)" = .ok [g] ∧ g.OnlyDaysOfMonth r ∧
        Date.firstMonthNumber < a.monthNumber ∧ a.day = a.monthLength + r.start + 1 ∧
          r.stop < a.day ∧ e.monthNumber = a.monthNumber + 1 ∧
            r.stop < e.monthLength + r.start + 1 ∧ e.day ≤ r.stop ∧ r.halfOpen = false) ∧
      (g.admitsDate d = true ∧ d.daysUntil e = 1) ∧
        ¬(g.admitsDate e = true ↔ (r.interval : Int) ∣ a.daysUntil e) := by
  intro r g a d e
  have hread : groupsOf "dom(-3..2%2)" = .ok [g] := by decide +kernel
  have hd : g.admitsDate d = true := by decide
  have he : g.admitsDate e = true := by decide
  have hcount : ¬(r.interval : Int) ∣ a.daysUntil e := by decide
  exact ⟨⟨hread, ⟨rfl, rfl, rfl⟩, by decide, by decide, by decide, by decide, by decide, by decide,
    rfl⟩, ⟨hd, by decide⟩, fun h => hcount (h.1 he)⟩

end OnlyDaysOfMonth

end Group

end Timetable

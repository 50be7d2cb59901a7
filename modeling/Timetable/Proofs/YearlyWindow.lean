/-
**The window of a search is long enough for a date of every year.**

A date without a year comes back after 365 or 366 days, and a search covers 366 days beyond the day
of its reference.  There is no room to spare: behind the last admitted second of a day a year before
the next leap day, the next one is on the last day of the window.  What has to be known besides is
that a range which can be written hits the day of its start in every year, whatever its end and its
interval are.  Only a start on 29 February has no such day in most years.

Main definitions:

* `Direction.lastDay`, `Direction.nextYear` — the end of the calendar and the year ahead, in walking
  order;
* `Group.OnlyDates` — a group whose only rule for dates is a range of dates.

Main results:

* `Direction.exists_monthDay_ahead` — **a month and a day come back within 366 days**;
* `Range.hitsDate_start` — a yearly range hits the day of its start in every year;
* `Group.OnlyDates.exists_mem_window` — the group admits an instant in every window;
* `Schedule.searches_reach_yearly_date` — **both queries succeed**.
-/

import Timetable.Proofs.DateProgression
import Timetable.Proofs.Written

set_option relaxedAutoImplicit false
set_option autoImplicit false

namespace Timetable

/-! ### From a year to the next -/

theorem yearLength_le (year : Int) : yearLength year ≤ 366 := by
  unfold yearLength
  split <;> omega

namespace Date

variable {d e : Date}

/-- The first day of the calendar. -/
def firstDay : Date := ⟨-9999, 1, 1, by decide⟩

/-- The last day of the calendar. -/
def lastDay : Date := ⟨9999, 12, 31, by decide⟩

theorem daysUntil_le_of_year_eq (h : e.year = d.year) : d.daysUntil e ≤ 366 := by
  have hlast := e.dayOfYear_lt
  have hfirst := d.dayOfYear_nonneg
  have hlong := yearLength_le d.year
  unfold daysUntil
  rw [h] at hlast
  rw [dayNumber_eq, dayNumber_eq, h]
  omega

/-- The days of a year before a month differ from year to year only behind the leap day. -/
theorem daysBeforeMonth_add_yearLength (y z month : Int) :
    daysBeforeMonth z month + (if month ≤ 2 then 0 else yearLength y) =
      daysBeforeMonth y month + if month ≤ 2 then 0 else yearLength z := by
  unfold daysBeforeMonth yearLength
  by_cases hfirst : month ≤ 1
  · simp only [if_pos hfirst, if_pos (show month ≤ 2 by omega)]
  · by_cases hsecond : month = 2
    · simp [hsecond]
    · have hlater : ¬month ≤ 2 := by omega
      simp only [if_neg hfirst, if_neg hsecond, if_neg hlater]
      generalize (if month = 3 then (59 : Int) else _) = before
      cases isLeap y <;> cases isLeap z <;> simp <;> omega

/-- **A month and a day come back after at most 366 days**: there is at most one leap day in between,
that of the first year up to February and that of the second one behind it. -/
theorem daysUntil_le_of_monthDay_eq (hyear : e.year = d.year + 1) (h : e.monthDay = d.monthDay) :
    d.daysUntil e ≤ 366 := by
  obtain ⟨hmonth, hday⟩ := month_day_of_monthDay_eq h
  have hsucc := daysBeforeYear_succ d.year
  have hmonths := daysBeforeMonth_add_yearLength d.year (d.year + 1) d.month
  have hlong := yearLength_le d.year
  have hlong' := yearLength_le (d.year + 1)
  unfold daysUntil dayNumber
  rw [hyear, hmonth, hday]
  by_cases hearly : d.month ≤ 2
  · rw [if_pos hearly, if_pos hearly] at hmonths
    omega
  · rw [if_neg hearly, if_neg hearly] at hmonths
    omega

end Date

/-! ### The calendar in walking order -/

namespace Direction

variable {dir : Direction} {d e : Date} {t : Instant}

/-- The last day of the calendar that a walk can come to. -/
def lastDay : Direction → Date
  | forward => Date.lastDay
  | backward => Date.firstDay

/-- The year a walk comes to behind a year. -/
def nextYear : Direction → Int → Int
  | forward, year => year + 1
  | backward, year => year - 1

theorem daysAhead_le_of_year_eq (h : e.year = d.year) : dir.daysAhead d e ≤ 366 := by
  cases dir with
  | forward => exact Date.daysUntil_le_of_year_eq h
  | backward => exact Date.daysUntil_le_of_year_eq h.symm

theorem daysAhead_le_of_monthDay_eq (hyear : e.year = dir.nextYear d.year)
    (h : e.monthDay = d.monthDay) : dir.daysAhead d e ≤ 366 := by
  cases dir with
  | forward => exact Date.daysUntil_le_of_monthDay_eq hyear h
  | backward =>
      refine Date.daysUntil_le_of_monthDay_eq ?_ h.symm
      rw [hyear]
      exact (Int.sub_add_cancel d.year 1).symm

theorem daysAhead_pos_of_year_eq (h : e.year = dir.nextYear d.year) : 0 < dir.daysAhead d e := by
  cases dir with
  | forward => exact Int.sub_pos_of_lt (Date.dayNumber_lt_of_year_lt (h ▸ Int.lt_succ d.year))
  | backward => exact Int.sub_pos_of_lt (Date.dayNumber_lt_of_year_lt (h ▸ Int.pred_self_lt d.year))

/-- Far enough from the end of the calendar there is a next year. -/
theorem nextYear_bounds (h : 366 ≤ dir.daysAhead d dir.lastDay) :
    -9999 ≤ dir.nextYear d.year ∧ dir.nextYear d.year ≤ 9999 := by
  have hcalendar := d.isDate.1
  have hfirst := d.dayOfYear_nonneg
  have hlast := d.dayOfYear_lt
  have hnumber := d.dayNumber_eq
  cases dir with
  | forward =>
      have hend : Date.lastDay.dayNumber = Date.daysBeforeYear 9999 + 364 := rfl
      simp only [daysAhead, Date.daysUntil, lastDay] at h
      have hne : d.year ≠ 9999 := by
        intro heq
        rw [heq] at hnumber
        omega
      simp only [nextYear]
      omega
  | backward =>
      have hend : Date.firstDay.dayNumber = Date.daysBeforeYear (-9999) := rfl
      simp only [daysAhead, Date.daysUntil, lastDay] at h
      have hne : d.year ≠ -9999 := by
        intro heq
        have hlong : yearLength (-9999) = 365 := rfl
        rw [heq] at hnumber hlast
        omega
      simp only [nextYear]
      omega

/-- **A month and a day that every year has come back within 366 days** in either direction, unless
the calendar ends before. -/
theorem exists_monthDay_ahead {m : Int ×ₗ Int}
    (hm : ∀ y, -9999 ≤ y → y ≤ 9999 → ∃ e : Date, e.year = y ∧ e.monthDay = m)
    (hroom : 366 ≤ dir.daysAhead d dir.lastDay) :
    ∃ e : Date, e.monthDay = m ∧ 0 < dir.daysAhead d e ∧ dir.daysAhead d e ≤ 366 := by
  obtain ⟨e, hyear, he⟩ := hm d.year d.isDate.1.1 d.isDate.1.2
  by_cases hahead : 0 < dir.daysAhead d e
  · exact ⟨e, he, hahead, daysAhead_le_of_year_eq hyear⟩
  · -- the day of this year is over, but then that of the next year is near enough
    obtain ⟨hlow, hhigh⟩ := nextYear_bounds hroom
    obtain ⟨f, hyear', hf⟩ := hm (dir.nextYear d.year) hlow hhigh
    have hback : dir.daysAhead e f ≤ 366 :=
      daysAhead_le_of_monthDay_eq (hyear ▸ hyear') (hf.trans he.symm)
    have hsum := dir.daysAhead_trans d e f
    exact ⟨f, hf, daysAhead_pos_of_year_eq hyear', by omega⟩

/-- All times of the days ahead are in the window. -/
theorem atSecond_mem_window (hpos : 0 < dir.daysAhead t.date e)
    (hle : dir.daysAhead t.date e ≤ 366) (c : Clock) : Instant.atSecond e c ∈ dir.window t := by
  refine ⟨Instant.isWhole_atSecond e c, ?_, hle⟩
  have hprecedes : dir.Precedes t (Instant.atSecond e c) := precedes_of_daysAhead_pos hpos
  cases dir with
  | forward =>
      refine lt_of_le_of_ne hprecedes ?_
      rintro rfl
      rw [Instant.atSecond, daysAhead_self] at hpos
      exact lt_irrefl 0 hpos
  | backward => exact hprecedes

end Direction

/-! ### The start of a yearly range -/

namespace Range

variable {r : Range DateValue} {d : Date}

/-- **A yearly range hits the day of its start in every year**, whatever its end and its interval
are, if every year has that day. -/
theorem hitsDate_start (h : r.WellFormedDates) (hyearless : r.start.isFull = false)
    (hleap : ¬(r.start.month = 2 ∧ r.start.day = 29)) (hd : d.monthDay = r.start.monthDay) :
    r.hitsDate d = true := by
  have hyear : r.start.year = none := DateValue.year_eq_none hyearless
  have hcandidate : DateValue.yearlessOfDate d = r.start :=
    (DateValue.yearlessOfDate_eq_iff hyear).2 hd
  have hself : r.start ≤ r.start := r.start.le_self
  have hanchor : r.start.anchor? (r.anchorYear d) = some d := by
    have hthis : r.anchorYear d = d.year := by
      unfold anchorYear
      rw [hcandidate, decide_eq_false ((DateValue.not_lt_iff_le rfl).2 hself), Bool.and_false]
      rfl
    unfold DateValue.anchor?
    rw [hthis, if_neg fun hfeb => hleap ⟨hfeb.1, hfeb.2.1⟩, ← hcandidate]
    exact d.of?_self
  unfold hitsDate
  rw [hyear]
  dsimp only
  rw [hitsYearly_eq, date_test_eq_true_iff, hcandidate, hanchor, onInterval_iff]
  refine ⟨?_, fun hopen => h.differ hopen, ?_⟩
  · cases hsplit : r.isSplit with
    | true => exact Or.inl hself
    | false =>
        have hle := (DateValue.not_lt_iff_le h.bound.1).1 (of_decide_eq_false hsplit)
        exact ⟨hself, hle⟩
  · exact ⟨0, by unfold Date.daysUntil; omega⟩

end Range

/-- Every year has the day of a date without a year, unless that is 29 February. -/
theorem DateValue.IsNameable.exists_monthDay {v : DateValue} (h : v.IsNameable)
    (hyearless : v.year = none) (hleap : ¬(v.month = 2 ∧ v.day = 29)) (y : Int) (hy : -9999 ≤ y)
    (hy' : y ≤ 9999) : ∃ d : Date, d.year = y ∧ d.monthDay = v.monthDay := by
  have hday : v.day ≤ monthLength y v.month :=
    h.day_le hyearless fun hfeb => hleap ⟨hfeb.1, hfeb.2.1⟩
  exact ⟨⟨y, v.month, v.day, ⟨hy, hy'⟩, h.2.1, h.2.2.1, hday⟩, rfl, rfl⟩

/-! ### Groups with a yearly range -/

namespace Group

/-- The only rule for dates is one range of dates to include. -/
structure OnlyDates (g : Group) (r : Range DateValue) : Prop where
  dates : g.dates = { included := [r] }
  daysOfMonth : g.daysOfMonth = {}
  daysOfWeek : g.daysOfWeek = {}

namespace OnlyDates

variable {g : Group} {r : Range DateValue} {d : Date} {dir : Direction} {t : Instant}

theorem admitsDate_eq (h : g.OnlyDates r) (d : Date) : g.admitsDate d = r.hitsDate d := by
  unfold admitsDate admitsDayOfMonth admitsDayOfWeek
  rw [h.dates, h.daysOfMonth, h.daysOfWeek]
  simp [Rules.admits, Rules.isEmpty]

/-- **The group admits an instant in every window** that does not reach past the end of the
calendar. -/
theorem exists_mem_window (hg : g.OnlyDates r) (h : r.WellFormedDates)
    (hyearless : r.start.isFull = false) (hleap : ¬(r.start.month = 2 ∧ r.start.day = 29))
    (hclock : ∃ c, g.admitsClock c = true) (hroom : 366 ≤ dir.daysAhead t.date dir.lastDay) :
    ∃ u ∈ dir.window t, g.admits u = true := by
  have hyear : r.start.year = none := DateValue.year_eq_none hyearless
  obtain ⟨d, hd, hpos, hle⟩ :=
    Direction.exists_monthDay_ahead (h.start.exists_monthDay hyear hleap) hroom
  obtain ⟨c, hc⟩ := hclock
  refine ⟨Instant.atSecond d c, Direction.atSecond_mem_window hpos hle c, admits_iff.2 ⟨?_, hc⟩⟩
  exact (hg.admitsDate_eq d).trans (Range.hitsDate_start h hyearless hleap hd)

end OnlyDates

end Group

/-! ### Schedules with a yearly range -/

namespace Schedule

variable {text : String} {s : Schedule} {g : Group} {r : Range DateValue} {t : Instant}

/-- **Both queries reach a yearly date.**  A schedule that was read has a group whose only rule for
dates is a range without years, which does not start on 29 February, and which admits some time of
day.  Then there is a next and a previous time from every reference that is at least 366 days away
from both ends of the calendar. -/
theorem searches_reach_yearly_date (h : ofText text = .ok s) (hg : g ∈ s.groups)
    (honly : g.OnlyDates r) (hyearless : r.start.isFull = false)
    (hleap : ¬(r.start.month = 2 ∧ r.start.day = 29)) (hclock : ∃ c, g.admitsClock c = true)
    (hfirst : 366 ≤ Date.firstDay.daysUntil t.date) (hlast : 366 ≤ t.date.daysUntil Date.lastDay) :
    (∃ u, s.next t = .ok u) ∧ ∃ u, s.previous t = .ok u := by
  have hmem : r ∈ g.dates.included := by
    rw [honly.dates]
    exact List.mem_singleton_self r
  have hrange : r.WellFormedDates := (wellFormed_of_ofText h hg).dates.1 r hmem
  have hsearch (dir : Direction) (hroom : 366 ≤ dir.daysAhead t.date dir.lastDay) :
      ∃ u, s.search dir t = .ok u := by
    obtain ⟨u, hu, hadmits⟩ := honly.exists_mem_window hrange hyearless hleap hclock hroom
    exact exists_search_eq_ok_iff.2
      ⟨u, mem_events.2 ⟨hu, List.any_eq_true.2 ⟨g, hg, hadmits⟩⟩⟩
  exact ⟨hsearch .forward hlast, hsearch .backward hfirst⟩

/-- In the last second of the first of March before a leap year the next time is on the last day of the
window, from a range that covers nearly the whole year and hits only its start. -/
theorem searches_reach_yearly_date_over_leap_day :
    let text := "date(3/1..<2/28%4294967295) h(23) m(59) s(59)"
    let r : Range DateValue := Range.of (.yearless 3 1) (.yearless 2 28) true 4294967295
    let g : Group :=
      { dates.included := [r]
        hours.included := [Range.single 23]
        minutes.included := [Range.single 59]
        seconds.included := [Range.single 59] }
    let s : Schedule := ⟨text, [g]⟩
    let t : Instant := ⟨⟨2023, 3, 1, by decide⟩, Clock.last, 500000000⟩
    let u : Instant := Instant.atSecond ⟨2024, 3, 1, by decide⟩ Clock.last
    (ofText text = .ok s ∧ g ∈ s.groups ∧ g.OnlyDates r ∧ r.start.isFull = false ∧
        ¬(r.start.month = 2 ∧ r.start.day = 29) ∧ (∃ c, g.admitsClock c = true) ∧
          366 ≤ Date.firstDay.daysUntil t.date ∧ 366 ≤ t.date.daysUntil Date.lastDay) ∧
      (s.next t = .ok u ∧ t.date.daysUntil u.date = 366) ∧
        (∃ u, s.next t = .ok u) ∧ ∃ u, s.previous t = .ok u := by
  intro text r g s t u
  have h : ofText text = .ok s := by decide +kernel
  have hg : g ∈ s.groups := List.mem_singleton_self g
  have honly : g.OnlyDates r := ⟨rfl, rfl, rfl⟩
  have hleap : ¬(r.start.month = 2 ∧ r.start.day = 29) := by decide
  have hclock : ∃ c, g.admitsClock c = true := ⟨Clock.last, by decide⟩
  have hfirst : 366 ≤ Date.firstDay.daysUntil t.date := by decide
  have hlast : 366 ≤ t.date.daysUntil Date.lastDay := by decide
  have hnext : s.next t = .ok u := by decide +kernel
  exact ⟨⟨h, hg, honly, rfl, hleap, hclock, hfirst, hlast⟩, ⟨hnext, by decide⟩,
    searches_reach_yearly_date h hg honly rfl hleap hclock hfirst hlast⟩

end Schedule

end Timetable

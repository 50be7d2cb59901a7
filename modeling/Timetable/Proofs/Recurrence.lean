/-
**What comes back without rules for dates.**

A group without rules for dates looks at four things of a date: the day of the month, the length of
the month, the length of the month before and the day of the week.  Every 400 years all of them come
back together.  So a group that admits an instant at all admits one in any 400 years, but a search
looks no farther than 366 days, and there may be none in these: the Friday that is the 13th of a
month comes back after up to 427 days.

Fewer things come back sooner.  A day of the week does so within a week, and a day of a month within
a year, but in February and in March the length of the month or that of the month before depends on
whether the year is a leap year.

Main results:

* `Date.exists_weekday_ahead` — every day of the week comes within a week;
* `Group.exists_admits_in_year` — **a group without rules for dates recurs after 400 years**;
* `Group.exists_mem_window_of_daysOfWeek`, `Group.exists_mem_window_of_daysOfMonth` — and with rules
  for one kind of days within the window of a search;
* `Schedule.recurs_though_window_ends` — **the next time of a schedule without dates**;
* `Schedule.window_hides_friday_13th` — it need not be found.
-/

import Timetable.Proofs.YearlyWindow

set_option relaxedAutoImplicit false
set_option autoImplicit false

namespace Timetable

/-! ### Days ahead -/

namespace Date

theorem IsLike.monthDay_eq {d e : Date} (h : e.IsLike d) : e.monthDay = d.monthDay :=
  congrArg toLex (Prod.ext h.month h.day)

/-- Up to the end of the calendar there is a date any number of days later. -/
theorem exists_daysUntil_eq (d : Date) (n : Nat) (h : n ≤ d.daysUntil lastDay) :
    ∃ e, d.daysUntil e = n := by
  induction n with
  | zero => exact ⟨d, Int.sub_self _⟩
  | succ n ih =>
      obtain ⟨e, he⟩ := ih (by omega)
      unfold daysUntil at he h ⊢
      cases hnext : e.next? with
      | none =>
          have hend := dayNumber_le_of_next?_eq_none hnext lastDay
          omega
      | some f =>
          have hsucc := dayNumber_next? hnext
          exact ⟨f, by omega⟩

/-- **Every day of the week comes within a week.** -/
theorem exists_weekday_ahead (d e : Date) (h : 7 ≤ d.daysUntil lastDay) :
    ∃ f : Date, f.weekday = e.weekday ∧ 0 < d.daysUntil f ∧ d.daysUntil f ≤ 7 := by
  obtain ⟨f, hf⟩ := d.exists_daysUntil_eq ((e.weekday - d.weekday - 1) % 7 + 1).toNat (by omega)
  have hdays : d.daysUntil f = (e.weekday - d.weekday - 1) % 7 + 1 := by omega
  refine ⟨f, ?_, by omega, by omega⟩
  unfold daysUntil weekday at *
  omega

/-- Before the last two years there is room for a search into the future. -/
theorem le_daysUntil_lastDay {d : Date} (h : d.year ≤ 9997) : 366 ≤ d.daysUntil lastDay := by
  have hmono := daysBeforeYear_mono (y := d.year + 1) (z := 9998) (by omega)
  have hsucc := daysBeforeYear_succ d.year
  have hlast := d.dayOfYear_lt
  have hnumber := d.dayNumber_eq
  have hend : lastDay.dayNumber = daysBeforeYear 9998 + 729 := rfl
  unfold daysUntil
  omega

end Date

/-! ### Groups without rules for dates -/

namespace Group

variable {g : Group} {d e : Date} {t v : Instant}

theorem admits_iff_of_isEmpty (h : g.dates.isEmpty = true) :
    g.admits t = true ↔ g.admitsDayOfMonth t.date = true ∧ g.admitsDayOfWeek t.date = true ∧
      g.admitsClock t.clock = true := by
  rw [admits_iff, admitsDate, Rules.admits_of_isEmpty h, Bool.true_and, Bool.and_eq_true, and_assoc]

/-- **A group without rules for dates recurs after 400 years**: it admits an instant in every year
that is some multiple of 400 years away from one in which it does. -/
theorem exists_admits_in_year (hdates : g.dates.isEmpty = true) (hv : g.admits v = true)
    (hfirst : -9999 < v.date.year) {y : Int} (hy : -9999 < y ∧ y ≤ 9999)
    (hcycle : y % 400 = v.date.year % 400) :
    ∃ u : Instant, u.IsWhole ∧ u.date.year = y ∧ g.admits u = true := by
  obtain ⟨hmonth, hweek, hclock⟩ := (admits_iff_of_isEmpty hdates).1 hv
  obtain ⟨e, rfl, he⟩ := Date.exists_isLike (d := v.date) ⟨by omega, hy.2⟩
    fun _ => isLeap_of_emod_eq hcycle
  refine ⟨Instant.atSecond e v.clock, Instant.isWhole_atSecond .., rfl,
    (admits_iff_of_isEmpty hdates).2 ⟨?_, ?_, hclock⟩⟩
  · exact (admitsDayOfMonth_of_isLike he hfirst hy.1).trans hmonth
  · exact (admitsDayOfWeek_of_weekday_eq (Date.weekday_of_emod_eq he hcycle)).trans hweek

/-- **Days of the week recur in every window.** -/
theorem exists_mem_window_of_daysOfWeek (hdates : g.dates.isEmpty = true)
    (hempty : g.daysOfMonth.isEmpty = true) (hv : g.admits v = true)
    (hroom : 7 ≤ t.date.daysUntil Date.lastDay) :
    ∃ u ∈ Direction.forward.window t, g.admits u = true := by
  obtain ⟨-, hweek, hclock⟩ := (admits_iff_of_isEmpty hdates).1 hv
  obtain ⟨e, he, hpos, hle⟩ := t.date.exists_weekday_ahead v.date hroom
  have hahead : 0 < Direction.forward.daysAhead t.date e := hpos
  have hnear : Direction.forward.daysAhead t.date e ≤ 366 := le_trans hle (by decide)
  have hmonth : g.admitsDayOfMonth e = true := by
    unfold admitsDayOfMonth
    rw [hempty, Bool.true_or]
  refine ⟨Instant.atSecond e v.clock, Direction.atSecond_mem_window hahead hnear v.clock,
    (admits_iff_of_isEmpty hdates).2 ⟨hmonth, ?_, hclock⟩⟩
  exact (admitsDayOfWeek_of_weekday_eq he).trans hweek

/-- **Days of the month recur in every window**, if in leap years as in other years there is one
with the same number in the same month. -/
theorem exists_mem_window_of_daysOfMonth (hdates : g.dates.isEmpty = true)
    (hempty : g.daysOfWeek.isEmpty = true) {m : Int ×ₗ Int}
    (hyears : ∀ y, ∃ v : Instant, g.admits v = true ∧ -9999 < v.date.year ∧ v.date.monthDay = m ∧
      (v.date.month = 2 ∨ v.date.month = 3 → isLeap y = isLeap v.date.year))
    (hfirst : -9999 < t.date.year) (hroom : 366 ≤ t.date.daysUntil Date.lastDay) :
    ∃ u ∈ Direction.forward.window t, g.admits u = true := by
  have hdays (y : Int) (hy : -9999 ≤ y) (hy' : y ≤ 9999) :
      ∃ e : Date, e.year = y ∧ e.monthDay = m := by
    obtain ⟨v, -, -, hv, hleap⟩ := hyears y
    obtain ⟨e, hyear, he⟩ := Date.exists_isLike ⟨hy, hy'⟩ hleap
    exact ⟨e, hyear, he.monthDay_eq.trans hv⟩
  obtain ⟨e, hmonthDay, hpos, hle⟩ : ∃ e : Date, e.monthDay = m ∧
      0 < Direction.forward.daysAhead t.date e ∧ Direction.forward.daysAhead t.date e ≤ 366 :=
    Direction.exists_monthDay_ahead hdays hroom
  -- the day in the window is like the one that is admitted in years of its length
  obtain ⟨v, hadmits, hyear, hv, hleap⟩ := hyears e.year
  obtain ⟨hmonth, hday⟩ := Date.month_day_of_monthDay_eq (hmonthDay.trans hv.symm)
  have hlike : e.IsLike v.date := ⟨hmonth, hday, hleap⟩
  have hlater : -9999 < e.year := by
    by_contra hlt
    have hback := Date.dayNumber_lt_of_year_lt (d := e) (e := t.date) (by omega)
    simp only [Direction.daysAhead, Date.daysUntil] at hpos
    omega
  obtain ⟨hmonth, -, hclock⟩ := (admits_iff_of_isEmpty hdates).1 hadmits
  refine ⟨Instant.atSecond e v.clock, Direction.atSecond_mem_window hpos hle v.clock,
    (admits_iff_of_isEmpty hdates).2 ⟨?_, ?_, hclock⟩⟩
  · exact (admitsDayOfMonth_of_isLike hlike hyear hlater).trans hmonth
  · exact Rules.admits_of_isEmpty hempty _

end Group

/-! ### Schedules without dates -/

namespace Schedule

variable {s : Schedule} {g : Group} {t v : Instant}

/-- **A schedule without dates recurs, though a search may not see it.**  A group has no rules for
dates and admits an instant of the years from 1 to 400.  Then something belongs to the schedule
within 400 years after every reference, but there is a next time only if that happens within 366
days.  It does if the group has no rules for the day of the month.  It also does if the group has no
rules for the day of the week and the instant is not of February or March, or there is another one
on the same day of a leap year if the year of the first is none, and the other way round. -/
theorem recurs_though_window_ends (hg : g ∈ s.groups) (hdates : g.dates.isEmpty = true)
    (hv : g.admits v = true) (hcycle : 1 ≤ v.date.year ∧ v.date.year ≤ 400)
    (ht : -9000 ≤ t.date.year ∧ t.date.year ≤ 9000) :
    (∃ u, u.IsWhole ∧ t < u ∧ u.date.year ≤ t.date.year + 400 ∧ s.admits u = true) ∧
      ((∃ u, s.next t = .ok u) ↔
        ∃ u, u.IsWhole ∧ t < u ∧ t.date.daysUntil u.date ≤ 366 ∧ s.admits u = true) ∧
      (g.daysOfMonth.isEmpty = true → ∃ u, s.next t = .ok u) ∧
      (g.daysOfWeek.isEmpty = true →
        (v.date.month ≠ 2 ∧ v.date.month ≠ 3) ∨
          (∃ w, g.admits w = true ∧ -9999 < w.date.year ∧
            w.date.monthDay = v.date.monthDay ∧ isLeap w.date.year ≠ isLeap v.date.year) →
        ∃ u, s.next t = .ok u) := by
  have hbelongs {u : Instant} (hu : g.admits u = true) : s.admits u = true :=
    List.any_eq_true.2 ⟨g, hg, hu⟩
  have hroom : 366 ≤ t.date.daysUntil Date.lastDay := Date.le_daysUntil_lastDay (by omega)
  have hfound (h : ∃ u ∈ Direction.forward.window t, g.admits u = true) :
      ∃ u, s.next t = .ok u := by
    obtain ⟨u, hu, hadmits⟩ := h
    exact exists_search_eq_ok_iff.2 ⟨u, mem_events.2 ⟨hu, hbelongs hadmits⟩⟩
  refine ⟨?_, exists_search_eq_ok_iff, fun hmonth => ?_, fun hweek hyears => ?_⟩
  · -- the first year behind that of the reference with the same place among 400 years
    obtain ⟨u, hwhole, hyear, hu⟩ := Group.exists_admits_in_year hdates hv (by omega)
      (y := t.date.year + 1 + (v.date.year - t.date.year - 1) % 400) (by omega) (by omega)
    have hlater : t.date < u.date := Date.dayNumber_lt_of_year_lt (by omega)
    refine ⟨u, hwhole, not_le.1 fun hle => ?_, by omega, hbelongs hu⟩
    exact not_le.2 hlater (Instant.date_le_of_le hle)
  · exact hfound (Group.exists_mem_window_of_daysOfWeek hdates hmonth hv (by omega))
  · refine hfound (Group.exists_mem_window_of_daysOfMonth (m := v.date.monthDay) hdates hweek
      (fun y => ?_) (by omega) hroom)
    by_cases hleap : v.date.month = 2 ∨ v.date.month = 3 → isLeap y = isLeap v.date.year
    · exact ⟨v, hv, by omega, rfl, hleap⟩
    · obtain ⟨hmonth, hleap⟩ := Classical.not_imp.1 hleap
      -- there are only two kinds of years, so the other instant is of a year like this one
      obtain ⟨w, hw, hfirst, hday, hother⟩ := hyears.resolve_left (by omega)
      exact ⟨w, hw, hfirst, hday, fun _ => (Bool.eq_not.2 hleap).trans (Bool.eq_not.2 hother).symm⟩

/-- From noon of the last of January on, through months without a 31st, the next 31st is in March.
-/
theorem recurs_though_window_ends_on_31st :
    let g : Group :=
      { daysOfMonth.included := [Range.single 31]
        hours.included := [Range.single 12]
        minutes.included := [Range.single 0]
        seconds.included := [Range.single 0] }
    let s : Schedule := ⟨"dom(31) h(12)", [g]⟩
    let v : Instant := Instant.atSecond ⟨1, 1, 31, by decide⟩ ⟨12, 0, 0⟩
    let t : Instant := Instant.atSecond ⟨2024, 1, 31, by decide⟩ ⟨12, 0, 0⟩
    let u : Instant := Instant.atSecond ⟨2024, 3, 31, by decide⟩ ⟨12, 0, 0⟩
    (ofText s.source = .ok s ∧ g ∈ s.groups ∧ g.dates.isEmpty = true ∧
        g.daysOfWeek.isEmpty = true ∧ g.admits v = true ∧
          (1 ≤ v.date.year ∧ v.date.year ≤ 400) ∧ (v.date.month ≠ 2 ∧ v.date.month ≠ 3) ∧
            -9000 ≤ t.date.year ∧ t.date.year ≤ 9000) ∧
      s.next t = .ok u ∧
        (∃ u, u.IsWhole ∧ t < u ∧ u.date.year ≤ t.date.year + 400 ∧ s.admits u = true) ∧
          ∃ u, s.next t = .ok u := by
  intro g s v t u
  have hread : ofText s.source = .ok s := by decide +kernel
  have hg : g ∈ s.groups := List.mem_singleton_self g
  have hv : g.admits v = true := by decide
  have hnext : s.next t = .ok u := by decide +kernel
  obtain ⟨hlater, -, -, hmonth⟩ :=
    recurs_though_window_ends (t := t) hg rfl hv (by decide) (by decide)
  exact ⟨⟨hread, hg, rfl, rfl, hv, by decide, by decide, by decide, by decide⟩, hnext, hlater,
    hmonth rfl (Or.inl (by decide))⟩

/-- **The window hides a Friday that is the 13th of a month.**  After that of July 2001 the next one
is in September 2002, and the search finds none.  Two years before a leap year it does not find the
first of its February either, if that is all that the rules for the day of the month leave. -/
theorem window_hides_friday_13th :
    let zero : Rules Int := { included := [Range.single 0] }
    let g : Group :=
      { daysOfMonth.included := [Range.single 13]
        daysOfWeek.included := [Range.single 6]
        hours := zero
        minutes := zero
        seconds := zero }
    let s : Schedule := ⟨"dom(13), dow(fri)", [g]⟩
    let v : Instant := Instant.atSecond ⟨1, 4, 13, by decide⟩ Clock.first
    let t : Instant := Instant.atSecond ⟨2001, 7, 13, by decide⟩ Clock.first
    let u : Instant := Instant.atSecond ⟨2002, 9, 13, by decide⟩ Clock.first
    let g' : Group :=
      { daysOfMonth :=
          ⟨[Range.single 1], [Range.single (-31), Range.single (-30), Range.single (-28)]⟩
        hours := zero
        minutes := zero
        seconds := zero }
    let s' : Schedule := ⟨"dom(1, !-31, !-30, !-28)", [g']⟩
    let v' : Instant := Instant.atSecond ⟨4, 2, 1, by decide⟩ Clock.first
    let t' : Instant := Instant.atSecond ⟨2022, 2, 1, by decide⟩ Clock.first
    (ofText s.source = .ok s ∧ g ∈ s.groups ∧ g.dates.isEmpty = true ∧ g.admits v = true ∧
        s.next t = .error (.noValidTime s.source) ∧ t < u ∧ s.admits u = true ∧
          t.date.daysUntil u.date = 427) ∧
      ofText s'.source = .ok s' ∧ g' ∈ s'.groups ∧ g'.dates.isEmpty = true ∧
        g'.daysOfWeek.isEmpty = true ∧ g'.admits v' = true ∧
          s'.next t' = .error (.noValidTime s'.source) := by
  intro zero g s v t u g' s' v' t'
  have hread : ofText s.source = .ok s := by decide +kernel
  have hread' : ofText s'.source = .ok s' := by decide +kernel
  have hnext : s.next t = .error (.noValidTime s.source) := by decide +kernel
  have hnext' : s'.next t' = .error (.noValidTime s'.source) := by decide +kernel
  exact ⟨⟨hread, List.mem_singleton_self g, rfl, by decide, hnext, by decide, by decide, by decide⟩,
    hread', List.mem_singleton_self g', rfl, rfl, by decide, hnext'⟩

end Schedule

end Timetable

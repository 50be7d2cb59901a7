/-
**Schedules without years repeat every 400 years.**

The Gregorian leap rule repeats after 400 years, and these are a whole number of weeks.  So a day and
the day 400 years later agree in everything that a rule without a year can ask for: month and day,
the lengths of their month and of the month before, the day of the week, and the distance from a day
of the same or of the year before, which moves along.  Hence the events of such a schedule repeat, and
with them what a search finds.

All of this holds only inside the calendar.  A search looks at most two years away from its reference
and a rule one year farther back, so a reference some years away from both ends of the calendar is
enough.

Main definitions:

* `Date.inNextCycle?`, `Instant.inNextCycle?` — the same day and time 400 years later;
* `Schedule.IsYearless` — no range of dates has a year.

Main results:

* `Date.dayNumber_inNextCycle?` — 400 years are 146097 days, wherever they begin;
* `Group.admitsDate_inNextCycle?` — **yearless rules admit a day with the one 400 years later**;
* `Schedule.exists_mem_events_inNextCycle?` and its converse — the events a search may find move with
  its reference;
* `Schedule.repeats_in_next_cycle` — **so do the answers of both queries**.
-/

import Timetable.Proofs.Coherence
import Timetable.Proofs.WellFormed
import Timetable.Proofs.YearsAlike

set_option relaxedAutoImplicit false
set_option autoImplicit false

namespace Timetable

/-! ### The leap rule -/

theorem isLeap_add_cycle (year : Int) : isLeap (year + 400) = isLeap year :=
  isLeap_of_emod_eq (Int.add_emod_right ..)

theorem monthLength_add_cycle (year month : Int) :
    monthLength (year + 400) month = monthLength year month :=
  monthLength_of_isLeap fun _ => isLeap_add_cycle year

/-- Whether three numbers name a day does not change after 400 years inside the calendar. -/
theorem isDate_add_cycle {year month day : Int} (h : -9999 ≤ year) (h' : year ≤ 9599) :
    IsDate (year + 400) month day ↔ IsDate year month day := by
  unfold IsDate
  rw [monthLength_add_cycle]
  omega

namespace Date

theorem daysBeforeYear_add_cycle (year : Int) :
    daysBeforeYear (year + 400) = daysBeforeYear year + 146097 := by
  unfold daysBeforeYear; omega

theorem daysBeforeMonth_add_cycle (year month : Int) :
    daysBeforeMonth (year + 400) month = daysBeforeMonth year month :=
  daysBeforeMonth_of_isLeap month (isLeap_add_cycle year)

/-! ### The day 400 years later -/

/-- The same day of the same month 400 years later, if it is in the calendar. -/
def inNextCycle? (d : Date) : Option Date := of? (d.year + 400) d.month d.day

variable {d e d' e' : Date}

theorem inNextCycle?_eq_some_iff :
    d.inNextCycle? = some d' ↔
      d'.year = d.year + 400 ∧ d'.month = d.month ∧ d'.day = d.day :=
  of?_eq_some_iff

/-- Looking a day up 400 years later yields the day 400 years later. -/
theorem of?_add_cycle {year month day : Int} (h : -9999 ≤ year) (h' : year ≤ 9599) :
    of? (year + 400) month day = (of? year month day).bind inNextCycle? := by
  by_cases hdate : IsDate year month day
  · have hlater := (isDate_add_cycle h h').2 hdate
    simp only [of?, dif_pos hdate, dif_pos hlater, Option.bind_some, inNextCycle?]
  · have hlater := mt (isDate_add_cycle h h').1 hdate
    simp only [of?, dif_neg hdate, dif_neg hlater, Option.bind_none]

theorem exists_inNextCycle? (h : d.year ≤ 9599) : ∃ d', d.inNextCycle? = some d' := by
  have hd := d.isDate
  have hlater := (isDate_add_cycle hd.1.1 h).2 hd
  exact ⟨⟨d.year + 400, d.month, d.day, hlater⟩, inNextCycle?_eq_some_iff.2 ⟨rfl, rfl, rfl⟩⟩

theorem exists_inNextCycle?_eq (h : -9599 ≤ d'.year) : ∃ d : Date, d.inNextCycle? = some d' := by
  have hd := d'.isDate
  have hyear := hd.1
  rw [← Int.sub_add_cancel d'.year 400, isDate_add_cycle (by omega) (by omega)] at hd
  refine ⟨⟨d'.year - 400, d'.month, d'.day, hd⟩, inNextCycle?_eq_some_iff.2 ⟨?_, rfl, rfl⟩⟩
  exact (Int.sub_add_cancel d'.year 400).symm

/-- **400 years are 146097 days**, wherever they begin. -/
theorem dayNumber_inNextCycle? (h : d.inNextCycle? = some d') :
    d'.dayNumber = d.dayNumber + 146097 := by
  obtain ⟨hyear, hmonth, hday⟩ := inNextCycle?_eq_some_iff.1 h
  unfold dayNumber
  rw [hyear, hmonth, hday, daysBeforeYear_add_cycle, daysBeforeMonth_add_cycle]
  omega

theorem daysUntil_inNextCycle? (h : d.inNextCycle? = some d') (he : e.inNextCycle? = some e') :
    d'.daysUntil e' = d.daysUntil e := by
  unfold daysUntil
  rw [dayNumber_inNextCycle? h, dayNumber_inNextCycle? he]
  omega

/-- 400 years are a whole number of weeks. -/
theorem weekday_inNextCycle? (h : d.inNextCycle? = some d') : d'.weekday = d.weekday := by
  unfold weekday
  rw [dayNumber_inNextCycle? h]
  omega

/-- Rules for the day of the month do not tell the two apart. -/
theorem isLike_inNextCycle? (h : d.inNextCycle? = some d') : d'.IsLike d := by
  obtain ⟨hyear, hmonth, hday⟩ := inNextCycle?_eq_some_iff.1 h
  exact ⟨hmonth, hday, fun _ => hyear ▸ isLeap_add_cycle d.year⟩

/-- The year of a day that has one 400 years later. -/
theorem year_le_of_inNextCycle? (h : d.inNextCycle? = some d') : d.year ≤ 9599 := by
  have hyear := (inNextCycle?_eq_some_iff.1 h).1
  have := d'.isDate.1
  omega

/-- A date at most 366 days later is at most two years later. -/
theorem year_le_of_daysUntil_le (h : d.daysUntil e ≤ 366) : e.year ≤ d.year + 2 := by
  by_contra hlt
  have hmono := daysBeforeYear_mono (y := d.year + 3) (z := e.year) (by omega)
  have hsucc := daysBeforeYear_succ d.year
  have hfirst := e.dayOfYear_nonneg
  have hlast := d.dayOfYear_lt
  have hstep : daysBeforeYear (d.year + 1) + 730 ≤ daysBeforeYear (d.year + 3) := by
    unfold daysBeforeYear; omega
  unfold daysUntil at h
  rw [dayNumber_eq, dayNumber_eq] at h
  omega

end Date

/-! ### Rules without a year -/

theorem isCalendarLeap_add_cycle {year : Int} (h : -9999 ≤ year) (h' : year ≤ 9599) :
    isCalendarLeap (year + 400) = isCalendarLeap year := by
  have hdate : IsDate (year + 400) 1 1 ↔ IsDate year 1 1 := isDate_add_cycle h h'
  have hsome (year : Int) : (Date.of? year 1 1).isSome = decide (IsDate year 1 1) := by
    by_cases hy : IsDate year 1 1 <;> simp [Date.of?, hy]
  unfold isCalendarLeap
  rw [hsome, hsome, decide_eq_decide.2 hdate, isLeap_add_cycle]

/-- The day from which a yearly range counts moves along by 400 years. -/
theorem DateValue.anchor?_add_cycle (start : DateValue) {year : Int} (h : -9999 ≤ year)
    (h' : year ≤ 9599) :
    start.anchor? (year + 400) = (start.anchor? year).bind Date.inNextCycle? := by
  unfold DateValue.anchor?
  rw [isCalendarLeap_add_cycle h h', Date.of?_add_cycle h h', Date.of?_add_cycle h h']
  split <;> rfl

theorem DateValue.year_anchor? {start : DateValue} {year : Int} {a : Date}
    (h : start.anchor? year = some a) : a.year = year := by
  unfold DateValue.anchor? at h
  split at h
  · exact (Date.of?_eq_some_iff.1 h).1
  · exact (Date.of?_eq_some_iff.1 h).1

/-- The range has no year at either end. -/
def Range.IsYearless (r : Range DateValue) : Prop :=
  r.start.isFull = false ∧ r.stop.isFull = false

instance (r : Range DateValue) : Decidable r.IsYearless := inferInstanceAs (Decidable (_ ∧ _))

namespace Range

variable {d d' : Date}

/-- The year in which the days of a yearly range are counted from its start, seen from a date: the
year before if the range has reached the date over the turn of the year. -/
def anchorYear (r : Range DateValue) (d : Date) : Int :=
  if r.isSplit && DateValue.yearlessOfDate d < r.start then d.year - 1 else d.year

/-- The days from an anchor, if there is one, to a date are a multiple of the interval. -/
def onInterval (r : Range DateValue) (anchor : Option Date) (d : Date) : Bool :=
  anchor.any fun a => a.daysUntil d % (r.interval : Int) = 0

/-- A yearly range looks at a date only for its month and day and for its distance from an anchor. -/
theorem hitsYearly_eq (r : Range DateValue) (d : Date) :
    r.hitsYearly d =
      if r.halfOpen && DateValue.yearlessOfDate d = r.stop then false
      else if ¬ (if r.isSplit then
          r.start ≤ DateValue.yearlessOfDate d ∨ DateValue.yearlessOfDate d ≤ r.stop
        else r.start ≤ DateValue.yearlessOfDate d ∧ DateValue.yearlessOfDate d ≤ r.stop) then false
      else r.interval = 1 || r.onInterval (r.start.anchor? (r.anchorYear d)) d := by
  cases hanchor : r.start.anchor? (r.anchorYear d) with
  | none | some a =>
      unfold anchorYear at hanchor
      unfold hitsYearly
      simp only [hanchor]
      rfl

theorem anchorYear_bounds (r : Range DateValue) (d : Date) :
    d.year - 1 ≤ r.anchorYear d ∧ r.anchorYear d ≤ d.year := by
  unfold anchorYear
  split <;> omega

theorem yearlessOfDate_inNextCycle? (h : d.inNextCycle? = some d') :
    DateValue.yearlessOfDate d' = DateValue.yearlessOfDate d := by
  obtain ⟨-, hmonth, hday⟩ := Date.inNextCycle?_eq_some_iff.1 h
  unfold DateValue.yearlessOfDate
  rw [hmonth, hday]

theorem anchorYear_inNextCycle? (r : Range DateValue) (h : d.inNextCycle? = some d') :
    r.anchorYear d' = r.anchorYear d + 400 := by
  have hyear := (Date.inNextCycle?_eq_some_iff.1 h).1
  unfold anchorYear
  rw [yearlessOfDate_inNextCycle? h, hyear]
  split <;> omega

/-- **A yearly range hits a day with the one 400 years later.** -/
theorem hitsYearly_inNextCycle? (r : Range DateValue) (h : d.inNextCycle? = some d')
    (hd : -9998 ≤ d.year) : r.hitsYearly d' = r.hitsYearly d := by
  have hlast := Date.year_le_of_inNextCycle? h
  have hbounds := r.anchorYear_bounds d
  have hcount : r.onInterval (r.start.anchor? (r.anchorYear d')) d' =
      r.onInterval (r.start.anchor? (r.anchorYear d)) d := by
    rw [r.anchorYear_inNextCycle? h, r.start.anchor?_add_cycle (by omega) (by omega)]
    cases ha : r.start.anchor? (r.anchorYear d) with
    | none => rfl
    | some a =>
        have hyear := DateValue.year_anchor? ha
        obtain ⟨a', ha'⟩ := Date.exists_inNextCycle? (d := a) (by omega)
        simp only [Option.bind_some, ha', onInterval, Option.any_some,
          Date.daysUntil_inNextCycle? ha' h]
  rw [hitsYearly_eq, hitsYearly_eq, yearlessOfDate_inNextCycle? h, hcount]

theorem hitsDate_inNextCycle? {r : Range DateValue} (hr : r.IsYearless)
    (h : d.inNextCycle? = some d') (hd : -9998 ≤ d.year) : r.hitsDate d' = r.hitsDate d := by
  have hstart : r.start.year = none := by
    have hfull := hr.1
    unfold DateValue.isFull at hfull
    exact Option.not_isSome_iff_eq_none.1 (by simp [hfull])
  unfold hitsDate
  rw [hstart]
  exact r.hitsYearly_inNextCycle? h hd

end Range

theorem Rules.admits_congr {α : Type} {rs : Rules α} {hit hit' : Range α → Bool}
    (h : rs.Forall fun r => hit r = hit' r) : rs.admits hit = rs.admits hit' := by
  have hincluded : (∃ r ∈ rs.included, hit r = true) ↔ ∃ r ∈ rs.included, hit' r = true :=
    exists_congr fun r => and_congr_right fun hr => by rw [h.1 r hr]
  have hexcluded : (∀ r ∈ rs.excluded, hit r = false) ↔ ∀ r ∈ rs.excluded, hit' r = false :=
    forall₂_congr fun r hr => by rw [h.2 r hr]
  rw [Bool.eq_iff_iff, Rules.admits_iff, Rules.admits_iff, hincluded, hexcluded]

namespace Group

variable {g : Group} {d d' : Date}

/-- **Yearless rules admit a day with the one 400 years later.** -/
theorem admitsDate_inNextCycle? (hg : g.dates.Forall Range.IsYearless)
    (h : d.inNextCycle? = some d') (hd : -9998 ≤ d.year) : g.admitsDate d' = g.admitsDate d := by
  have hdates : g.dates.admits (·.hitsDate d') = g.dates.admits (·.hitsDate d) :=
    Rules.admits_congr ⟨fun r hr => Range.hitsDate_inNextCycle? (hg.1 r hr) h hd,
      fun r hr => Range.hitsDate_inNextCycle? (hg.2 r hr) h hd⟩
  have hyear := (Date.inNextCycle?_eq_some_iff.1 h).1
  have hmonth : g.admitsDayOfMonth d' = g.admitsDayOfMonth d :=
    admitsDayOfMonth_of_isLike (Date.isLike_inNextCycle? h) (by omega) (by omega)
  have hweek : g.admitsDayOfWeek d' = g.admitsDayOfWeek d :=
    admitsDayOfWeek_of_weekday_eq (Date.weekday_inNextCycle? h)
  unfold admitsDate
  rw [hdates, hmonth, hweek]

end Group

/-! ### Instants -/

namespace Instant

variable {t t' u u' : Instant}

/-- The same time of the same day of the same month 400 years later, if it is in the calendar. -/
def inNextCycle? (t : Instant) : Option Instant :=
  t.date.inNextCycle?.map fun d => { t with date := d }

theorem inNextCycle?_eq_some_iff :
    t.inNextCycle? = some t' ↔
      t.date.inNextCycle? = some t'.date ∧ t'.clock = t.clock ∧ t'.nano = t.nano := by
  unfold inNextCycle?
  rw [Option.map_eq_some_iff]
  constructor
  · rintro ⟨d, hd, rfl⟩
    exact ⟨hd, rfl, rfl⟩
  · rintro ⟨hd, hclock, hnano⟩
    refine ⟨t'.date, hd, ?_⟩
    rw [← hclock, ← hnano]

theorem exists_inNextCycle? (h : t.date.year ≤ 9599) : ∃ t', t.inNextCycle? = some t' := by
  obtain ⟨d', hd'⟩ := Date.exists_inNextCycle? h
  exact ⟨{ t with date := d' }, inNextCycle?_eq_some_iff.2 ⟨hd', rfl, rfl⟩⟩

theorem exists_inNextCycle?_eq (h : -9599 ≤ t'.date.year) :
    ∃ t : Instant, t.inNextCycle? = some t' := by
  obtain ⟨d, hd⟩ := Date.exists_inNextCycle?_eq h
  exact ⟨{ t' with date := d }, inNextCycle?_eq_some_iff.2 ⟨hd, rfl, rfl⟩⟩

theorem year_inNextCycle? (h : t.inNextCycle? = some t') : t'.date.year = t.date.year + 400 :=
  (Date.inNextCycle?_eq_some_iff.1 (inNextCycle?_eq_some_iff.1 h).1).1

/-- All instants move by the same time. -/
theorem nanoseconds_inNextCycle? (h : t.inNextCycle? = some t') :
    t'.nanoseconds = t.nanoseconds + 146097 * 86400 * 1000000000 := by
  obtain ⟨hdate, hclock, hnano⟩ := inNextCycle?_eq_some_iff.1 h
  unfold nanoseconds seconds
  rw [Date.dayNumber_inNextCycle? hdate, hclock, hnano]
  omega

theorem le_inNextCycle? (ht : t.inNextCycle? = some t') (hu : u.inNextCycle? = some u') :
    t' ≤ u' ↔ t ≤ u := by
  rw [le_def, le_def, nanoseconds_inNextCycle? ht, nanoseconds_inNextCycle? hu]
  omega

theorem lt_inNextCycle? (ht : t.inNextCycle? = some t') (hu : u.inNextCycle? = some u') :
    t' < u' ↔ t < u := by
  rw [← not_le, le_inNextCycle? hu ht, not_le]

theorem isWhole_inNextCycle? (h : t.inNextCycle? = some t') : t'.IsWhole ↔ t.IsWhole := by
  unfold IsWhole
  rw [(inNextCycle?_eq_some_iff.1 h).2.2]

end Instant

namespace Direction

variable {t t' u u' : Instant}

theorem precedes_inNextCycle? (dir : Direction) (ht : t.inNextCycle? = some t')
    (hu : u.inNextCycle? = some u') : dir.Precedes t' u' ↔ dir.Precedes t u := by
  cases dir with
  | forward => exact Instant.le_inNextCycle? ht hu
  | backward => exact Instant.le_inNextCycle? hu ht

theorem reaches_inNextCycle? (dir : Direction) (ht : t.inNextCycle? = some t')
    (hu : u.inNextCycle? = some u') : dir.Reaches t' u' ↔ dir.Reaches t u := by
  cases dir with
  | forward => exact Instant.lt_inNextCycle? ht hu
  | backward => exact Instant.le_inNextCycle? hu ht

/-- The instants a search may find move with its reference. -/
theorem mem_window_inNextCycle? (dir : Direction) (ht : t.inNextCycle? = some t')
    (hu : u.inNextCycle? = some u') : u' ∈ dir.window t' ↔ u ∈ dir.window t := by
  have hdays : dir.daysAhead t'.date u'.date = dir.daysAhead t.date u.date := by
    have htdate := (Instant.inNextCycle?_eq_some_iff.1 ht).1
    have hudate := (Instant.inNextCycle?_eq_some_iff.1 hu).1
    cases dir with
    | forward => exact Date.daysUntil_inNextCycle? htdate hudate
    | backward => exact Date.daysUntil_inNextCycle? hudate htdate
  simp only [window, Set.mem_ofPred_eq, Instant.isWhole_inNextCycle? hu,
    dir.reaches_inNextCycle? ht hu, hdays]

/-- A search looks at most two years away from its reference. -/
theorem year_bounds_of_mem_window {dir : Direction} (h : u ∈ dir.window t) :
    t.date.year - 2 ≤ u.date.year ∧ u.date.year ≤ t.date.year + 2 := by
  obtain ⟨-, hreaches, hdays⟩ := h
  have hahead := daysAhead_nonneg hreaches.precedes
  have hnear : t.date.daysUntil u.date ≤ 366 ∧ u.date.daysUntil t.date ≤ 366 := by
    cases dir <;> simp only [daysAhead, Date.daysUntil] at hahead hdays ⊢ <;> omega
  have hlast := Date.year_le_of_daysUntil_le hnear.1
  have hfirst := Date.year_le_of_daysUntil_le hnear.2
  omega

end Direction

/-! ### Schedules -/

namespace Schedule

variable {s : Schedule} {t t' u u' : Instant}

/-- No range of dates of the schedule has a year. -/
def IsYearless (s : Schedule) : Prop := ∀ g ∈ s.groups, g.dates.Forall Range.IsYearless

instance (s : Schedule) : Decidable s.IsYearless :=
  inferInstanceAs (Decidable (∀ g ∈ s.groups, g.dates.Forall Range.IsYearless))

theorem admits_inNextCycle? (hs : s.IsYearless) (h : t.inNextCycle? = some t')
    (ht : -9998 ≤ t.date.year) : s.admits t' = s.admits t := by
  obtain ⟨hdate, hclock, -⟩ := Instant.inNextCycle?_eq_some_iff.1 h
  unfold admits anyAdmits Group.admits
  rw [hclock, Bool.eq_iff_iff]
  simp only [List.any_eq_true, Bool.and_eq_true]
  refine exists_congr fun g => and_congr_right fun hg => ?_
  rw [Group.admitsDate_inNextCycle? (hs g hg) hdate ht]

theorem mem_events_inNextCycle? (hs : s.IsYearless) (dir : Direction)
    (ht : t.inNextCycle? = some t') (hu : u.inNextCycle? = some u')
    (hyear : -9998 ≤ u.date.year) : u' ∈ s.events dir t' ↔ u ∈ s.events dir t := by
  rw [mem_events, mem_events, dir.mem_window_inNextCycle? ht hu, admits_inNextCycle? hs hu hyear]

section Search

variable (hs : s.IsYearless) (ht : t.inNextCycle? = some t')
  (hyear : -9990 ≤ t.date.year ∧ t.date.year ≤ 9590)
include hs ht hyear

/-- Every event that a search may find has one 400 years later. -/
theorem exists_mem_events_inNextCycle? {dir : Direction} (hu : u ∈ s.events dir t) :
    ∃ u', u.inNextCycle? = some u' ∧ u' ∈ s.events dir t' := by
  have hbounds := Direction.year_bounds_of_mem_window (mem_events.1 hu).1
  obtain ⟨u', hu'⟩ := Instant.exists_inNextCycle? (t := u) (by omega)
  exact ⟨u', hu', (mem_events_inNextCycle? hs dir ht hu' (by omega)).2 hu⟩

/-- Every event that a search may find 400 years later has one 400 years before. -/
theorem exists_mem_events_of_inNextCycle? {dir : Direction} (hu' : u' ∈ s.events dir t') :
    ∃ u, u.inNextCycle? = some u' ∧ u ∈ s.events dir t := by
  have hbounds := Direction.year_bounds_of_mem_window (mem_events.1 hu').1
  have hyear' := Instant.year_inNextCycle? ht
  obtain ⟨u, hu⟩ : ∃ u : Instant, u.inNextCycle? = some u' :=
    Instant.exists_inNextCycle?_eq (by omega)
  have huyear := Instant.year_inNextCycle? hu
  exact ⟨u, hu, (mem_events_inNextCycle? hs dir ht hu (by omega)).1 hu'⟩

/-- **What a search finds moves with its reference.** -/
theorem search_inNextCycle? {dir : Direction} (h : s.search dir t = .ok u) :
    ∃ u', u.inNextCycle? = some u' ∧ s.search dir t' = .ok u' := by
  obtain ⟨hmem, hnearest⟩ := search_eq_ok_iff.1 h
  obtain ⟨u', hu', hmem'⟩ := exists_mem_events_inNextCycle? hs ht hyear hmem
  refine ⟨u', hu', search_eq_ok_iff.2 ⟨hmem', fun v' hv' => ?_⟩⟩
  obtain ⟨v, hv, hvmem⟩ := exists_mem_events_of_inNextCycle? hs ht hyear hv'
  exact (dir.precedes_inNextCycle? hu' hv).2 (hnearest v hvmem)

/-- A search fails 400 years later exactly if it fails. -/
theorem search_eq_error_inNextCycle? {dir : Direction} {e : ScheduleError} :
    s.search dir t' = .error e ↔ s.search dir t = .error e := by
  rw [search_eq_error_iff, search_eq_error_iff]
  refine and_congr_right fun _ => ?_
  rw [Set.eq_empty_iff_forall_notMem, Set.eq_empty_iff_forall_notMem]
  constructor
  · intro hempty u hu
    obtain ⟨u', -, hu'⟩ := exists_mem_events_inNextCycle? hs ht hyear hu
    exact hempty u' hu'
  · intro hempty u' hu'
    obtain ⟨u, -, hu⟩ := exists_mem_events_of_inNextCycle? hs ht hyear hu'
    exact hempty u hu

end Search

/-- **A schedule without years repeats every 400 years.**  At the same time 400 years later it admits
what it admits now, both queries have the same answers 400 years later, and each fails if it fails
now. -/
theorem repeats_in_next_cycle (hs : s.IsYearless)
    (hyear : -9990 ≤ t.date.year ∧ t.date.year ≤ 9590) :
    ∃ t', t.inNextCycle? = some t' ∧ s.admits t' = s.admits t ∧
      ((∀ u, s.next t = .ok u → ∃ u', u.inNextCycle? = some u' ∧ s.next t' = .ok u') ∧
        ∀ e, s.next t' = .error e ↔ s.next t = .error e) ∧
      (∀ u, s.previous t = .ok u → ∃ u', u.inNextCycle? = some u' ∧ s.previous t' = .ok u') ∧
        ∀ e, s.previous t' = .error e ↔ s.previous t = .error e := by
  obtain ⟨t', ht⟩ := Instant.exists_inNextCycle? (t := t) (by omega)
  refine ⟨t', ht, admits_inNextCycle? hs ht (by omega), ⟨fun u hu => ?_, fun e => ?_⟩,
    fun u hu => ?_, fun e => ?_⟩
  · exact search_inNextCycle? hs ht hyear hu
  · exact search_eq_error_inNextCycle? hs ht hyear
  · exact search_inNextCycle? hs ht hyear hu
  · exact search_eq_error_inNextCycle? hs ht hyear

/-- Every third day counted from a leap day over the turn of the year, if it is one of the last days
of its month or of the first ones of the next, seen from the last second of a year with a fraction.
-/
theorem repeats_from_leap_day :
    let s : Schedule := ⟨"date(2/29..1/5%3) dom(-3..2) h(*%7)",
      [{ dates.included := [Range.of (.yearless 2 29) (.yearless 1 5) false 3]
         daysOfMonth.included := [Range.of (-3) 2 false 1]
         hours.included := [Range.of 0 23 false 7]
         minutes.included := [Range.single 0]
         seconds.included := [Range.single 0] }]⟩
    let t : Instant := ⟨⟨9590, 12, 31, by decide⟩, Clock.last, 500000000⟩
    let u : Instant := ⟨⟨9591, 3, 30, by decide⟩, ⟨0, 0, 0⟩, 0⟩
    let v : Instant := ⟨⟨9590, 12, 31, by decide⟩, ⟨21, 0, 0⟩, 0⟩
    let t' : Instant := ⟨⟨9990, 12, 31, by decide⟩, Clock.last, 500000000⟩
    let u' : Instant := ⟨⟨9991, 3, 30, by decide⟩, ⟨0, 0, 0⟩, 0⟩
    let v' : Instant := ⟨⟨9990, 12, 31, by decide⟩, ⟨21, 0, 0⟩, 0⟩
    (s.IsYearless ∧ -9990 ≤ t.date.year ∧ t.date.year ≤ 9590) ∧
      t.inNextCycle? = some t' ∧ s.admits t' = s.admits t ∧
        (s.next t = .ok u ∧ s.next t' = .ok u') ∧
          s.previous t = .ok v ∧ s.previous t' = .ok v' := by
  intro s t u v t' u' v'
  have hs : s.IsYearless := by decide
  have hyear : -9990 ≤ t.date.year ∧ t.date.year ≤ 9590 := by decide
  have ht : t.inNextCycle? = some t' := by decide +kernel
  have hu : u.inNextCycle? = some u' := by decide +kernel
  have hv : v.inNextCycle? = some v' := by decide +kernel
  have hnext : s.next t = .ok u := by decide +kernel
  have hprevious : s.previous t = .ok v := by decide +kernel
  obtain ⟨r, hr, hadmits, ⟨hmoved, -⟩, hback, -⟩ := repeats_in_next_cycle hs hyear
  obtain rfl : t' = r := Option.some_inj.1 (ht.symm.trans hr)
  refine ⟨⟨hs, hyear⟩, ht, hadmits, ⟨hnext, ?_⟩, hprevious, ?_⟩
  · obtain ⟨w, hw, hanswer⟩ := hmoved u hnext
    rwa [← Option.some_inj.1 (hu.symm.trans hw)] at hanswer
  · obtain ⟨w, hw, hanswer⟩ := hback v hprevious
    rwa [← Option.some_inj.1 (hv.symm.trans hw)] at hanswer

end Schedule

end Timetable

/-
**What a search finds.**

A search visits days and sweeps clocks and never looks at a second that is not on a sweep.  This
module says what comes out in terms that mention neither: the instants a search may find from a
reference are the whole seconds behind it — into the past the reference itself included — whose
date lies at most 366 days away, and it finds the nearest of them that belongs to the schedule, or
tells that there is none.

The walk is anchored in two places.  Its first day is the day of the second after the reference,
which may already be the next day; the other days are counted from the day of the reference.  So a
day may be walked twice, once from the time of the first second on and once from its start, and the
two searches may overlap there; what only the second of them covers still comes behind all that the
first one covers.

Main definitions:

* `Direction.Reaches`, `Direction.daysAhead` — what lies behind a reference, and how many days;
* `Direction.window` — **the instants a search may find**;
* `Schedule.events` — those of them that belong to a schedule.

Main results:

* `Direction.mem_daysFrom` — the days a search visits after the first one;
* `Group.finds_event?` — the search of one group;
* `Schedule.finds_events` — **the search of several groups finds the nearest event in its window**.
-/

import Mathlib.Order.MinMax
import Timetable.Proofs.DayScan
import Timetable.Schedule

set_option relaxedAutoImplicit false
set_option autoImplicit false

namespace Timetable

namespace Direction

/-! ### Days -/

/-- The number of days from one date to another in walking direction. -/
def daysAhead : Direction → Date → Date → Int
  | forward, d, e => d.daysUntil e
  | backward, d, e => e.daysUntil d

theorem daysAhead_trans (dir : Direction) (d e f : Date) :
    dir.daysAhead d f = dir.daysAhead d e + dir.daysAhead e f := by
  cases dir <;> simp only [daysAhead, Date.daysUntil] <;> omega

theorem daysAhead_eq_zero {dir : Direction} {d e : Date} : dir.daysAhead d e = 0 ↔ d = e := by
  rw [← Date.dayNumber_inj]
  cases dir <;> simp only [daysAhead, Date.daysUntil] <;> omega

@[simp] theorem daysAhead_self (dir : Direction) (d : Date) : dir.daysAhead d d = 0 :=
  daysAhead_eq_zero.2 rfl

/-- The neighbouring day is one day ahead. -/
theorem daysAhead_nextDay? {dir : Direction} {d e : Date} (h : dir.nextDay? d = some e) :
    dir.daysAhead d e = 1 := by
  cases dir with
  | forward =>
      have : e.dayNumber = d.dayNumber + 1 := Date.dayNumber_next? h
      simp only [daysAhead, Date.daysUntil]; omega
  | backward =>
      have : e.dayNumber = d.dayNumber - 1 := Date.dayNumber_prev? h
      simp only [daysAhead, Date.daysUntil]; omega

/-- Where there is no neighbouring day no date is ahead. -/
theorem daysAhead_nonpos {dir : Direction} {d : Date} (h : dir.nextDay? d = none) (e : Date) :
    dir.daysAhead d e ≤ 0 := by
  cases dir with
  | forward =>
      have := Date.dayNumber_le_of_next?_eq_none h e
      simp only [daysAhead, Date.daysUntil]; omega
  | backward =>
      have := Date.le_dayNumber_of_prev?_eq_none h e
      simp only [daysAhead, Date.daysUntil]; omega

/-- **The days after a date are those at most so many days ahead**, also where the calendar ends
before. -/
theorem mem_daysFrom {dir : Direction} {n : Nat} {d e : Date} :
    e ∈ dir.daysFrom n d ↔ 0 < dir.daysAhead d e ∧ dir.daysAhead d e ≤ n := by
  induction n generalizing d with
  | zero => simp only [daysFrom, List.not_mem_nil, false_iff]; omega
  | succ n ih =>
      unfold daysFrom
      -- where the calendar ends the walk is short, but nothing is ahead either
      cases hnext : dir.nextDay? d with
      | none =>
          have := daysAhead_nonpos hnext e
          simp only [List.not_mem_nil, false_iff]; omega
      | some d' =>
          have hsum := dir.daysAhead_trans d d' e
          have hone := daysAhead_nextDay? hnext
          have hzero : e = d' ↔ dir.daysAhead d' e = 0 := eq_comm.trans daysAhead_eq_zero.symm
          simp only [List.mem_cons, ih, hzero]
          omega

/-- The days after a date come in walking order. -/
theorem daysFrom_pairwise (dir : Direction) (n : Nat) (d : Date) :
    (dir.daysFrom n d).Pairwise fun e f => 0 < dir.daysAhead e f := by
  induction n generalizing d with
  | zero => exact List.Pairwise.nil
  | succ n ih =>
      unfold daysFrom
      cases dir.nextDay? d with
      | none => exact List.Pairwise.nil
      | some d' => exact List.Pairwise.cons (fun f hf => (mem_daysFrom.1 hf).1) (ih d')

/-! ### The window -/

/-- What lies behind a reference: into the future all that is later, into the past all that is not
later. -/
def Reaches : Direction → Instant → Instant → Prop
  | forward, t, u => t < u
  | backward, t, u => u ≤ t

/-- **The instants a search may find**: the whole seconds behind the reference whose date is at most
366 days ahead of its date. -/
def window (dir : Direction) (t : Instant) : Set Instant :=
  {u | u.IsWhole ∧ dir.Reaches t u ∧ dir.daysAhead t.date u.date ≤ 366}

theorem precedes_of_daysAhead_pos {dir : Direction} {t u : Instant}
    (h : 0 < dir.daysAhead t.date u.date) : dir.Precedes t u := by
  cases dir with
  | forward =>
      refine Instant.le_of_date_lt (Date.lt_def.2 ?_)
      simp only [daysAhead, Date.daysUntil] at h; omega
  | backward =>
      refine Instant.le_of_date_lt (Date.lt_def.2 ?_)
      simp only [daysAhead, Date.daysUntil] at h; omega

theorem precedes_atSecond {dir : Direction} {d : Date} {c c' : Clock} :
    dir.Precedes (Instant.atSecond d c) (Instant.atSecond d c') ↔ dir.Precedes c c' := by
  cases dir with
  | forward => exact Instant.atSecond_le_atSecond
  | backward => exact Instant.atSecond_le_atSecond

theorem precedes_dayStart {dir : Direction} (c : Clock) : dir.Precedes dir.dayStart c := by
  cases dir with
  | forward => exact Clock.first_le c
  | backward => exact Clock.le_last c

/-! ### The first instant of a walk -/

/-- Where a walk has no first instant nothing lies behind the reference. -/
theorem not_reaches_of_start?_eq_none {dir : Direction} {t u : Instant}
    (h : dir.start? t = none) (hu : u.IsWhole) : ¬ dir.Reaches t u := by
  cases dir with
  | forward =>
      have := Instant.seconds_le_of_next?_eq_none h u
      rw [Reaches, Instant.lt_iff_of_isWhole hu]
      omega
  | backward => cases h

/-- What lies behind the reference is what comes from the first instant of the walk on: on a later
day, or on its day from its time on. -/
theorem reaches_iff {dir : Direction} {t start u : Instant} (h : dir.start? t = some start)
    (hu : u.IsWhole) :
    dir.Reaches t u ↔ 0 < dir.daysAhead start.date u.date ∨
      u.date = start.date ∧ dir.Precedes start.clock u.clock := by
  -- whole seconds compare like their numbers, in which the day counts more than any time of it
  have hstart := start.clock.secondOfDay_lt
  have hclock := u.clock.secondOfDay_lt
  rw [← Date.dayNumber_inj]
  cases dir with
  | forward =>
      have hnext := Instant.seconds_next? h
      rw [Reaches, Instant.lt_iff_of_isWhole hu]
      simp only [daysAhead, Date.daysUntil, Precedes, Clock.le_def]
      simp only [Instant.seconds] at hnext ⊢
      omega
  | backward =>
      cases h
      rw [Reaches, Instant.le_iff_of_isWhole hu]
      simp only [daysAhead, Date.daysUntil, Precedes, Clock.le_def, Instant.seconds]
      omega

/-- The first instant of a walk is on the day of the reference or at the start of the next one. -/
theorem date_start? {dir : Direction} {t start : Instant} (h : dir.start? t = some start) :
    start.date = t.date ∨ dir.daysAhead t.date start.date = 1 ∧ start.clock = dir.dayStart := by
  cases dir with
  | forward =>
      rcases Instant.date_next? h with hdate | ⟨hdate, hclock⟩
      · exact Or.inl hdate
      · exact Or.inr ⟨daysAhead_nextDay? hdate, hclock⟩
  | backward => cases h; exact Or.inl rfl

theorem daysAhead_start? {dir : Direction} {t start : Instant} (h : dir.start? t = some start) :
    0 ≤ dir.daysAhead t.date start.date ∧ dir.daysAhead t.date start.date ≤ 1 := by
  rcases date_start? h with hdate | ⟨hone, -⟩
  · rw [hdate, daysAhead_self]; omega
  · omega

/-- A day after that of the reference comes behind the first day of the walk, or is that day walked
from its start. -/
theorem later_or_precedes {dir : Direction} {t start u : Instant}
    (h : dir.start? t = some start) (hpos : 0 < dir.daysAhead t.date u.date) :
    0 < dir.daysAhead start.date u.date ∨
      u.date = start.date ∧ dir.Precedes start.clock u.clock := by
  rcases date_start? h with hdate | ⟨hone, hclock⟩
  · exact Or.inl (hdate ▸ hpos)
  · have hsum := dir.daysAhead_trans t.date start.date u.date
    by_cases hzero : dir.daysAhead start.date u.date = 0
    · exact Or.inr ⟨(daysAhead_eq_zero.1 hzero).symm, hclock ▸ precedes_dayStart _⟩
    · exact Or.inl (by omega)

end Direction

namespace Group

variable (g : Group) (dir : Direction)

/-! ### The search of one group -/

theorem admits_iff {g : Group} {t : Instant} :
    g.admits t = true ↔ g.admitsDate t.date = true ∧ g.admitsClock t.clock = true := by
  simp only [admits, Bool.and_eq_true]

/-- The walk of one day finds the nearest admitted second of that day from a time on. -/
theorem finds_eventOnDay? (d : Date) (start : Clock) :
    dir.Finds {u | u.IsWhole ∧ u.date = d ∧ dir.Precedes start u.clock ∧ g.admits u = true}
      (g.eventOnDay? dir d start) := by
  refine Direction.Finds.guard (fun u hu => hu.2.1 ▸ (admits_iff.1 hu.2.2.2).1) fun hdate => ?_
  refine ((g.finds_timeInDay? dir start).map
    fun _ _ _ _ h => Direction.precedes_atSecond.2 h).congr ?_
  intro u
  constructor
  · rintro ⟨c, ⟨hc, hadmits⟩, rfl⟩
    exact ⟨rfl, rfl, hc, admits_iff.2 ⟨hdate, hadmits⟩⟩
  · rintro ⟨hwhole, rfl, hc, hadmits⟩
    exact ⟨u.clock, ⟨hc, (admits_iff.1 hadmits).2⟩, hwhole.eq_atSecond.symm⟩

/-- The walk of the days after a date finds the nearest admitted second of those days. -/
theorem finds_eventOnDays? (n : Nat) (d : Date) :
    dir.Finds
      {u | u.IsWhole ∧ 0 < dir.daysAhead d u.date ∧ dir.daysAhead d u.date ≤ n ∧
        g.admits u = true}
      (g.eventOnDays? dir (dir.daysFrom n d)) := by
  rw [eventOnDays?_eq_findSome?]
  refine (Direction.finds_findSome? ?_
    fun e _ => g.finds_eventOnDay? dir e dir.dayStart).congr ?_
  · refine (dir.daysFrom_pairwise n d).imp ?_
    rintro e f hef u ⟨-, rfl, -⟩ v ⟨-, rfl, -⟩
    exact Direction.precedes_of_daysAhead_pos hef
  · intro u
    constructor
    · rintro ⟨e, he, hwhole, rfl, -, hadmits⟩
      obtain ⟨hpos, hle⟩ := Direction.mem_daysFrom.1 he
      exact ⟨hwhole, hpos, hle, hadmits⟩
    · rintro ⟨hwhole, hpos, hle, hadmits⟩
      exact ⟨u.date, Direction.mem_daysFrom.2 ⟨hpos, hle⟩, hwhole, rfl,
        Direction.precedes_dayStart u.clock, hadmits⟩

/-- **The search of one group finds the nearest instant in its window that the group admits.** -/
theorem finds_event? (t : Instant) :
    dir.Finds {u | u ∈ dir.window t ∧ g.admits u = true} (g.event? dir t) := by
  unfold event?
  cases hstart : dir.start? t with
  | none =>
      refine Direction.Finds.none_of_forall ?_
      rintro u ⟨⟨hwhole, hreaches, -⟩, -⟩
      exact Direction.not_reaches_of_start?_eq_none hstart hwhole hreaches
  | some start =>
      rw [Option.bind_some]
      -- the days after the reference are walked whole, also where the walk starts on one of them
      refine ((g.finds_eventOnDay? dir start.date start.clock).or
        (g.finds_eventOnDays? dir (searchWindowDays - 1) t.date) ?_).congr ?_
      · -- a later day comes behind, and a first day walked twice is covered by its first walk
        rintro u ⟨-, hu, -⟩ v ⟨hwhole, hpos, -, hadmits⟩
        rcases Direction.later_or_precedes hstart hpos with hahead | ⟨hdate, hclock⟩
        · exact Or.inr (Direction.precedes_of_daysAhead_pos (hu ▸ hahead))
        · exact Or.inl ⟨hwhole, hdate, hclock, hadmits⟩
      · intro u
        constructor
        · rintro (⟨hwhole, hdate, hclock, hadmits⟩ | ⟨hwhole, hpos, hle, hadmits⟩)
          · have hreaches := (Direction.reaches_iff hstart hwhole).2 (Or.inr ⟨hdate, hclock⟩)
            have := (Direction.daysAhead_start? hstart).2
            exact ⟨⟨hwhole, hreaches, by rw [hdate]; omega⟩, hadmits⟩
          · have hreaches := (Direction.reaches_iff hstart hwhole).2
              (Direction.later_or_precedes hstart hpos)
            exact ⟨⟨hwhole, hreaches, hle⟩, hadmits⟩
        · rintro ⟨⟨hwhole, hreaches, hle⟩, hadmits⟩
          rcases (Direction.reaches_iff hstart hwhole).1 hreaches with hahead | ⟨hdate, hclock⟩
          · have := (Direction.daysAhead_start? hstart).1
            have := dir.daysAhead_trans t.date start.date u.date
            exact Or.inr ⟨hwhole, by omega, hle, hadmits⟩
          · exact Or.inl ⟨hwhole, hdate, hclock, hadmits⟩

end Group

/-! ### The search of several groups -/

namespace Direction

/-- The nearest of several instants. -/
theorem finds_nearest? (dir : Direction) (ts : List Instant) :
    dir.Finds {u | u ∈ ts} (dir.nearest? ts) := by
  cases ts with
  | nil => cases dir <;> exact Finds.none_of_forall fun u hu => by cases hu
  | cons t ts =>
      cases hu : dir.nearest? (t :: ts) with
      | none => cases dir <;> simp [nearest?] at hu
      | some u =>
          cases dir with
          | forward => exact List.min?_eq_some_iff.1 hu
          | backward => exact List.max?_eq_some_iff.1 hu

end Direction

/-- The nearest of the instants found for several groups is the nearest of all that they might have
found. -/
theorem Direction.Finds.nearest? {dir : Direction} {groups : List Group}
    {found : Group → Option Instant} {events : Group → Set Instant}
    (h : ∀ g ∈ groups, dir.Finds (events g) (found g)) :
    dir.Finds {u | ∃ g ∈ groups, u ∈ events g} (dir.nearest? (groups.filterMap found)) := by
  have hnearest := dir.finds_nearest? (groups.filterMap found)
  cases hu : dir.nearest? (groups.filterMap found) with
  | none =>
      refine none_of_forall ?_
      rintro u ⟨g, hg, hmem⟩
      have hnone : found g = none := by
        by_contra hsome
        obtain ⟨v, hv⟩ := Option.ne_none_iff_exists'.1 hsome
        have hempty := Set.eq_empty_iff_forall_notMem.1 (hnearest.eq_none_iff.1 hu) v
        exact hempty (List.mem_filterMap.2 ⟨g, hg, hv⟩)
      rw [(h g hg).eq_none_iff.1 hnone] at hmem
      exact hmem
  | some u =>
      rw [hu] at hnearest
      obtain ⟨hmem, hfirst⟩ := hnearest
      obtain ⟨g, hg, hfound⟩ := List.mem_filterMap.1 hmem
      refine ⟨⟨g, hg, ((h g hg).eq_some_iff.1 hfound).1⟩, ?_⟩
      rintro v ⟨g', hg', hv⟩
      -- the other group has found something too, and that is no later than `v`
      cases hw : found g' with
      | none => rw [(h g' hg').eq_none_iff.1 hw] at hv; cases hv
      | some w =>
          have huw := hfirst w (List.mem_filterMap.2 ⟨g', hg', hw⟩)
          exact huw.trans (((h g' hg').eq_some_iff.1 hw).2 v hv)

namespace Schedule

/-- The instants of the schedule that a search from a reference may find: the whole seconds that
belong to it, lie behind the reference and have a date at most 366 days away from its date. -/
def events (s : Schedule) : Direction → Instant → Set Instant
  | .forward, t => {u | u.IsWhole ∧ t < u ∧ t.date.daysUntil u.date ≤ 366 ∧ s.admits u = true}
  | .backward, t => {u | u.IsWhole ∧ u ≤ t ∧ u.date.daysUntil t.date ≤ 366 ∧ s.admits u = true}

theorem mem_events {s : Schedule} {dir : Direction} {t u : Instant} :
    u ∈ s.events dir t ↔ u ∈ dir.window t ∧ s.admits u = true := by
  cases dir <;> simp only [events, Direction.window, Direction.Reaches, Direction.daysAhead,
    Set.mem_ofPred_eq, and_assoc]

/-- **The search of several groups finds the nearest event in its window.** -/
theorem finds_events (s : Schedule) (dir : Direction) (t : Instant) :
    dir.Finds (s.events dir t) (Timetable.nearest? s.groups dir t) := by
  refine (Direction.Finds.nearest? fun g _ => g.finds_event? dir t).congr fun u => ?_
  simp only [mem_events, admits, anyAdmits, List.any_eq_true, Set.mem_ofPred_eq]
  constructor
  · rintro ⟨g, hg, hwindow, hadmits⟩; exact ⟨hwindow, g, hg, hadmits⟩
  · rintro ⟨hwindow, g, hg, hadmits⟩; exact ⟨g, hg, hwindow, hadmits⟩

theorem search_eq_ok_iff {s : Schedule} {dir : Direction} {t u : Instant} :
    s.search dir t = .ok u ↔ dir.IsNearest (s.events dir t) u := by
  rw [← (s.finds_events dir t).eq_some_iff]
  unfold search
  cases Timetable.nearest? s.groups dir t <;> simp

theorem search_eq_error_iff {s : Schedule} {dir : Direction} {t : Instant} {e : ScheduleError} :
    s.search dir t = .error e ↔ e = .noValidTime s.source ∧ s.events dir t = ∅ := by
  rw [← (s.finds_events dir t).eq_none_iff]
  unfold search
  cases Timetable.nearest? s.groups dir t <;> simp [eq_comm]

/-- A search succeeds if there is anything to find. -/
theorem exists_search_eq_ok_iff {s : Schedule} {dir : Direction} {t : Instant} :
    (∃ u, s.search dir t = .ok u) ↔ (s.events dir t).Nonempty := by
  constructor
  · rintro ⟨u, hu⟩
    exact ⟨u, (search_eq_ok_iff.1 hu).1⟩
  · intro hne
    cases h : s.search dir t with
    | ok u => exact ⟨u, rfl⟩
    | error e => rw [(search_eq_error_iff.1 h).2] at hne; exact absurd hne Set.not_nonempty_empty

/-! ### The two queries -/

/-- **The next time is the least event behind the reference.**  There is one exactly if some whole
second after the reference, at most 366 days after its date, belongs to the schedule, and otherwise
the query says that no time was found. -/
theorem next_exact (s : Schedule) (t : Instant) :
    (∀ u, s.next t = .ok u ↔ IsLeast (s.events .forward t) u) ∧
      ((∃ u, s.next t = .ok u) ↔ (s.events .forward t).Nonempty) ∧
      ∀ e, s.next t = .error e ↔ e = .noValidTime s.source ∧ s.events .forward t = ∅ :=
  ⟨fun _ => search_eq_ok_iff.trans Direction.isNearest_forward, exists_search_eq_ok_iff,
    fun _ => search_eq_error_iff⟩

/-- **The previous time is the greatest event up to the reference.**  There is one exactly if some
whole second not after the reference, at most 366 days before its date, belongs to the schedule, and
otherwise the query says that no time was found. -/
theorem previous_exact (s : Schedule) (t : Instant) :
    (∀ u, s.previous t = .ok u ↔ IsGreatest (s.events .backward t) u) ∧
      ((∃ u, s.previous t = .ok u) ↔ (s.events .backward t).Nonempty) ∧
      ∀ e, s.previous t = .error e ↔ e = .noValidTime s.source ∧ s.events .backward t = ∅ :=
  ⟨fun _ => search_eq_ok_iff.trans Direction.isNearest_backward, exists_search_eq_ok_iff,
    fun _ => search_eq_error_iff⟩

end Schedule

end Timetable

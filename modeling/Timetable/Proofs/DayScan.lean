/-
**The scan of one day is a search in the order of the clock.**

The hands of the clock are swept one inside the other, and the minute and the second of the starting
time count only in its hour and in its minute.  That is what comparing times of day by hour, minute
and second amounts to: a time of day comes no earlier than the starting time if each of its hands
lies on the sweep of that hand.

Main definitions:

* `Direction.minuteFrom`, `Direction.secondFrom` — where the sweeps of the inner hands begin;
* `Group.clockInMinute?`, `Group.clockInHour?` — the scans of one minute and of one hour.

Main results:

* `Direction.precedes_clock_iff` — **walking order on the clock, hand by hand**;
* `Group.finds_timeInDay?` — **the scan of a day finds the nearest admitted time from its start
  on**.
-/

import Mathlib.Order.Fin.Basic
import Timetable.Proofs.Nearest
import Timetable.Proofs.Timeline

set_option relaxedAutoImplicit false
set_option autoImplicit false

namespace Timetable

namespace Direction

/-! ### Sweeps -/

theorem mem_sweep {dir : Direction} {n : Nat} {i j : Fin n} :
    j ∈ dir.sweep i ↔ dir.Precedes i j := by
  cases dir with
  | forward => exact mem_sweep_forward
  | backward => exact mem_sweep_backward

/-- A sweep meets its numbers in walking order, and each of them once. -/
theorem sweep_pairwise (dir : Direction) {n : Nat} (i : Fin n) :
    (dir.sweep i).Pairwise fun j k => dir.Precedes j k ∧ j ≠ k := by
  have hup : (List.finRange n).Pairwise (· < ·) := List.pairwise_lt_finRange n
  cases dir with
  | forward =>
      refine (hup.filter _).imp ?_
      intro j k h
      exact ⟨le_of_lt h, ne_of_lt h⟩
  | backward =>
      refine ((List.pairwise_reverse.2 hup).filter _).imp ?_
      intro j k h
      exact ⟨le_of_lt h, ne_of_gt h⟩

/-! ### The order of the clock, hand by hand -/

/-- The minute from which an hour is swept. -/
def minuteFrom (dir : Direction) (start : Clock) (hour : Fin 24) : Fin 60 :=
  if hour = start.hour then start.minute else dir.dayStart.minute

/-- The second from which a minute is swept. -/
def secondFrom (dir : Direction) (start : Clock) (hour : Fin 24) (minute : Fin 60) : Fin 60 :=
  if hour = start.hour ∧ minute = start.minute then start.second else dir.dayStart.second

theorem precedes_dayStart_minute {dir : Direction} (m : Fin 60) :
    dir.Precedes dir.dayStart.minute m := by
  cases dir with
  | forward => exact Fin.zero_le m
  | backward => exact Fin.le_last m

theorem precedes_dayStart_second {dir : Direction} (s : Fin 60) :
    dir.Precedes dir.dayStart.second s := by
  cases dir with
  | forward => exact Fin.zero_le s
  | backward => exact Fin.le_last s

/-- **A time of day comes no earlier on the walk than another one if each of its hands lies on the
sweep of that hand.** -/
theorem precedes_clock_iff {dir : Direction} {start c : Clock} :
    dir.Precedes start c ↔
      dir.Precedes start.hour c.hour ∧ dir.Precedes (dir.minuteFrom start c.hour) c.minute ∧
        dir.Precedes (dir.secondFrom start c.hour c.minute) c.second := by
  -- the hands are digits of the second of the day, so the first that differs decides
  have hm := c.minute.isLt
  have hs := c.second.isLt
  have hm' := start.minute.isLt
  have hs' := start.second.isLt
  cases dir with
  | forward =>
      simp only [Precedes, Clock.le_def, Clock.secondOfDay, minuteFrom, secondFrom, dayStart,
        Clock.first, Fin.le_def, Fin.ext_iff]
      split <;> split <;> omega
  | backward =>
      simp only [Precedes, Clock.le_def, Clock.secondOfDay, minuteFrom, secondFrom, dayStart,
        Clock.last, Fin.le_def, Fin.ext_iff]
      split <;> split <;> omega

theorem precedes_of_hour {dir : Direction} {c d : Clock} (h : dir.Precedes c.hour d.hour)
    (hne : c.hour ≠ d.hour) : dir.Precedes c d := by
  refine precedes_clock_iff.2 ⟨h, ?_, ?_⟩
  · rw [minuteFrom, if_neg hne.symm]
    exact precedes_dayStart_minute _
  · rw [secondFrom, if_neg fun h => hne h.1.symm]
    exact precedes_dayStart_second _

theorem precedes_of_minute {dir : Direction} {c d : Clock} (hhour : c.hour = d.hour)
    (h : dir.Precedes c.minute d.minute) (hne : c.minute ≠ d.minute) : dir.Precedes c d := by
  refine precedes_clock_iff.2 ⟨hhour ▸ Precedes.refl dir _, ?_, ?_⟩
  · rwa [minuteFrom, if_pos hhour.symm]
  · rw [secondFrom, if_neg fun h => hne h.2.symm]
    exact precedes_dayStart_second _

theorem precedes_of_second {dir : Direction} {hour : Fin 24} {minute s s' : Fin 60}
    (h : dir.Precedes s s') : dir.Precedes (⟨hour, minute, s⟩ : Clock) ⟨hour, minute, s'⟩ := by
  refine precedes_clock_iff.2 ⟨Precedes.refl dir _, ?_, ?_⟩
  · rw [minuteFrom, if_pos rfl]
    exact Precedes.refl dir _
  · rwa [secondFrom, if_pos ⟨rfl, rfl⟩]

end Direction

namespace Group

/-! ### The scan -/

/-- The first time of day of one minute that the group admits. -/
def clockInMinute? (g : Group) (dir : Direction) (start : Clock) (hour : Fin 24)
    (minute : Fin 60) : Option Clock :=
  if g.admitsMinute minute then
    ((dir.sweep (dir.secondFrom start hour minute)).find? g.admitsSecond).map
      fun second => ⟨hour, minute, second⟩
  else none

/-- The first time of day of one hour that the group admits. -/
def clockInHour? (g : Group) (dir : Direction) (start : Clock) (hour : Fin 24) : Option Clock :=
  if g.admitsHour hour then
    (dir.sweep (dir.minuteFrom start hour)).findSome? (g.clockInMinute? dir start hour)
  else none

theorem timeInDay?_eq (g : Group) (dir : Direction) (start : Clock) :
    g.timeInDay? dir start = (dir.sweep start.hour).findSome? (g.clockInHour? dir start) := by
  unfold timeInDay?
  congr
  funext hour
  unfold clockInHour?
  cases g.admitsHour hour with
  | false => rfl
  | true =>
      simp only [Bool.not_true, Bool.false_eq_true, if_false, if_true]
      congr
      funext minute
      unfold clockInMinute?
      cases g.admitsMinute minute <;> rfl

theorem admitsClock_iff {g : Group} {c : Clock} :
    g.admitsClock c = true ↔
      g.admitsHour c.hour = true ∧ g.admitsMinute c.minute = true ∧
        g.admitsSecond c.second = true := by
  simp only [admitsClock, Bool.and_eq_true, and_assoc]

variable (g : Group) (dir : Direction) (start : Clock)

/-- The scan of a minute finds the nearest second on its sweep that the group admits. -/
theorem finds_clockInMinute? (hour : Fin 24) (minute : Fin 60) :
    dir.Finds
      {c | c.hour = hour ∧ c.minute = minute ∧
        dir.Precedes (dir.secondFrom start c.hour c.minute) c.second ∧
        g.admitsMinute c.minute = true ∧ g.admitsSecond c.second = true}
      (g.clockInMinute? dir start hour minute) := by
  refine Direction.Finds.guard (fun c hc => hc.2.1 ▸ hc.2.2.2.1) fun hminute => ?_
  have hsorted := (dir.sweep_pairwise (dir.secondFrom start hour minute)).imp And.left
  refine ((Direction.finds_find? hsorted g.admitsSecond).map
    fun _ _ _ _ h => Direction.precedes_of_second h).congr ?_
  rintro ⟨h, m, s⟩
  constructor
  · rintro ⟨s', ⟨hs, hadmits⟩, heq⟩
    cases heq
    exact ⟨rfl, rfl, Direction.mem_sweep.1 hs, hminute, hadmits⟩
  · rintro ⟨rfl, rfl, hs, -, hadmits⟩
    exact ⟨s, ⟨Direction.mem_sweep.2 hs, hadmits⟩, rfl⟩

/-- The scan of an hour finds the nearest time on its sweeps that the group admits. -/
theorem finds_clockInHour? (hour : Fin 24) :
    dir.Finds
      {c | c.hour = hour ∧ dir.Precedes (dir.minuteFrom start c.hour) c.minute ∧
        dir.Precedes (dir.secondFrom start c.hour c.minute) c.second ∧ g.admitsClock c = true}
      (g.clockInHour? dir start hour) := by
  refine Direction.Finds.guard (fun c hc => hc.1 ▸ (admitsClock_iff.1 hc.2.2.2).1) fun hhour => ?_
  refine (Direction.finds_findSome? ?_
    fun minute _ => g.finds_clockInMinute? dir start hour minute).congr ?_
  · refine (dir.sweep_pairwise (dir.minuteFrom start hour)).imp ?_
    rintro m m' ⟨hm, hne⟩ c ⟨hc, rfl, -⟩ d ⟨hd, rfl, -⟩
    exact Direction.precedes_of_minute (hc.trans hd.symm) hm hne
  · intro c
    constructor
    · rintro ⟨m, hm, rfl, rfl, hs, hminute, hsecond⟩
      exact ⟨rfl, Direction.mem_sweep.1 hm, hs, admitsClock_iff.2 ⟨hhour, hminute, hsecond⟩⟩
    · rintro ⟨rfl, hm, hs, hadmits⟩
      obtain ⟨-, hminute, hsecond⟩ := admitsClock_iff.1 hadmits
      exact ⟨c.minute, Direction.mem_sweep.2 hm, rfl, rfl, hs, hminute, hsecond⟩

/-- **The scan of a day finds the nearest time from its start on that the group admits.** -/
theorem finds_timeInDay? :
    dir.Finds {c | dir.Precedes start c ∧ g.admitsClock c = true} (g.timeInDay? dir start) := by
  rw [timeInDay?_eq]
  refine (Direction.finds_findSome? ?_ fun hour _ => g.finds_clockInHour? dir start hour).congr ?_
  · refine (dir.sweep_pairwise start.hour).imp ?_
    rintro h h' ⟨hh, hne⟩ c ⟨rfl, -⟩ d ⟨rfl, -⟩
    exact Direction.precedes_of_hour hh hne
  · intro c
    constructor
    · rintro ⟨h, hh, rfl, hm, hs, hadmits⟩
      exact ⟨Direction.precedes_clock_iff.2 ⟨Direction.mem_sweep.1 hh, hm, hs⟩, hadmits⟩
    · rintro ⟨hc, hadmits⟩
      obtain ⟨hh, hm, hs⟩ := Direction.precedes_clock_iff.1 hc
      exact ⟨c.hour, Direction.mem_sweep.2 hh, rfl, hm, hs, hadmits⟩

end Group

end Timetable

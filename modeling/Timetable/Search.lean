/-
**Searching for the nearest instant.**

A search walks away from a reference, into the future or into the past, and looks for the first
whole second that a group admits.  Into the future the reference itself does not count, into the
past it does.  The walk covers the day of the reference and 366 days beyond it and ends early where
the calendar ends.

Within a day the hands of the clock are swept one inside the other.  The minute of the starting time
matters only in its hour and the second only in its minute; everywhere else a sweep covers a whole
dial.  On every day but the first the walk starts from the same end of the day, so the time of day
it finds is the same on all of them and is looked for once.

Main definitions:

* `Direction` — into the future or into the past;
* `Direction.sweep` — the values of a dial in walking order;
* `Group.timeInDay?` — the first admitted time of a day;
* `Direction.daysFrom` — the days after a date in walking order;
* `Group.event?` — **the instant nearest to a reference that a group admits**;
* `nearest?` — the same for several groups, any of which may admit the instant;
* `anyAdmits` — whether one of several groups admits an instant.
-/

import Timetable.Rule.Membership

set_option relaxedAutoImplicit false
set_option autoImplicit false

namespace Timetable

/-- The number of days a search covers, the day of the reference included. -/
def searchWindowDays : Nat := 367

/-- The way a search walks through time. -/
inductive Direction
  | forward
  | backward
  deriving DecidableEq

namespace Direction

/-- The neighbouring day in walking order. -/
def nextDay? : Direction → Date → Option Date
  | forward => Date.next?
  | backward => Date.prev?

/-- The time at which a day is entered. -/
def dayStart : Direction → Clock
  | forward => Clock.first
  | backward => Clock.last

/-- The first instant that may be found: the second after the reference into the future, the
reference itself into the past. -/
def start? : Direction → Instant → Option Instant
  | forward, t => t.next?
  | backward, t => some t

/-- The numbers of a dial from a given one on, in walking order. -/
def sweep {n : Nat} : Direction → Fin n → List (Fin n)
  | forward, i => (List.finRange n).filter (i ≤ ·)
  | backward, i => (List.finRange n).reverse.filter (· ≤ i)

/-- The days after a date in walking order, at most `n` of them and none past an end of the
calendar. -/
def daysFrom (dir : Direction) : Nat → Date → List Date
  | 0, _ => []
  | n + 1, d =>
    match dir.nextDay? d with
    | some e => e :: daysFrom dir n e
    | none => []

/-- The nearest of several instants: the earliest into the future, the latest into the past. -/
def nearest? : Direction → List Instant → Option Instant
  | forward, ts => ts.min?
  | backward, ts => ts.max?

theorem mem_sweep_forward {n : Nat} {i j : Fin n} : j ∈ sweep forward i ↔ i ≤ j := by
  simp [sweep]

theorem mem_sweep_backward {n : Nat} {i j : Fin n} : j ∈ sweep backward i ↔ j ≤ i := by
  simp [sweep]

end Direction

namespace Group

/-- The first time of day in walking order, from a starting time on, that the group admits. -/
def timeInDay? (g : Group) (dir : Direction) (start : Clock) : Option Clock :=
  (dir.sweep start.hour).findSome? fun hour =>
    if !g.admitsHour hour then none
    else
      let fromMinute := if hour = start.hour then start.minute else dir.dayStart.minute
      (dir.sweep fromMinute).findSome? fun minute =>
        if !g.admitsMinute minute then none
        else
          let fromSecond :=
            if hour = start.hour ∧ minute = start.minute then start.second
            else dir.dayStart.second
          ((dir.sweep fromSecond).find? g.admitsSecond).map fun second => ⟨hour, minute, second⟩

/-- The first instant in walking order on one day, from a starting time on, that the group
admits. -/
def eventOnDay? (g : Group) (dir : Direction) (d : Date) (start : Clock) : Option Instant :=
  if g.admitsDate d then (g.timeInDay? dir start).map (Instant.atSecond d) else none

/-- The first instant in walking order on one of several days, each walked from its start, that the
group admits. -/
def eventOnDays? (g : Group) (dir : Direction) (days : List Date) : Option Instant :=
  (g.timeInDay? dir dir.dayStart).bind fun c =>
    (days.find? g.admitsDate).map fun d => Instant.atSecond d c

/-- **The instant nearest to a reference that the group admits**, if there is one within the
window of the search. -/
def event? (g : Group) (dir : Direction) (reference : Instant) : Option Instant :=
  (dir.start? reference).bind fun start =>
    (g.eventOnDay? dir start.date start.clock).or
      (g.eventOnDays? dir (dir.daysFrom (searchWindowDays - 1) reference.date))

/-- Walking several days from their starts is walking them one after the other. -/
theorem eventOnDays?_eq_findSome? (g : Group) (dir : Direction) (days : List Date) :
    g.eventOnDays? dir days = days.findSome? fun d => g.eventOnDay? dir d dir.dayStart := by
  unfold eventOnDays? eventOnDay?
  cases g.timeInDay? dir dir.dayStart with
  | none =>
    induction days with
    | nil => rfl
    | cons d ds ih => simpa using ih
  | some c =>
    induction days with
    | nil => rfl
    | cons d ds ih =>
      by_cases h : g.admitsDate d = true
      · simp [h]
      · simpa [h] using ih

end Group

/-- The nearest instant that any of the groups admits. -/
def nearest? (groups : List Group) (dir : Direction) (reference : Instant) : Option Instant :=
  dir.nearest? (groups.filterMap fun g => g.event? dir reference)

/-- Whether any of the groups admits the instant. -/
def anyAdmits (groups : List Group) (t : Instant) : Bool := groups.any (·.admits t)

end Timetable

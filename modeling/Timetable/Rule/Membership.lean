/-
**Which values a range hits, and which instants a group admits.**

On a dial a range is an arithmetic progression walked upwards from its start, through the end of
the dial if the range is split.  The day of the month is the one dial whose length varies: a split
range wraps at the end of the month *before* the one the date is in, so that its interval keeps
counting through the real end of that month.  A range of dates without a year recurs every year;
one that is split reaches into the next year, and the dates it hits there are counted from its start
in the year before.

Main definitions:

* `Range.hits` — membership on a dial of a given length;
* `Range.countedFromStart` — days counted back from the end of a month made into days of that month;
* `Range.hitsDate` — membership of a date, in `Range.hitsFull` or `Range.hitsYearly`;
* `Group.admitsDate`, `Group.admitsHour`, `Group.admitsMinute`, `Group.admitsSecond` — the tests of
  a group on a date and on each hand of the clock;
* `Group.admits` — all of them together.
-/

import Timetable.Calendar.Instant
import Timetable.Rule.Group

set_option relaxedAutoImplicit false
set_option autoImplicit false

namespace Timetable

/-! ### Numbers on a dial -/

/-- Whether a range hits a value on a dial of the given length.  A split range hits the values from
its start to the end of the dial and on from the beginning to its stop, and its interval keeps
counting from the start across the end. -/
def Range.hits (r : Range Int) (length value : Int) : Bool :=
  if r.halfOpen && value = r.stop then false
  else if r.start ≤ value ∧ value ≤ r.stop then (value - r.start) % r.interval = 0
  else if r.stop < r.start ∧ (value ≤ r.stop ∨ r.start ≤ value) then
    if r.start ≤ value then (value - r.start) % r.interval = 0
    else (value + length - r.start) % r.interval = 0
  else false

/-- The range with days counted back from the end of a month, `-1` being the last, replaced by the
days of a month of the given length. -/
def Range.countedFromStart (r : Range Int) (monthLength : Int) : Range Int :=
  r.map fun v => if v < 0 then monthLength + v + 1 else v

/-! ### Dates -/

/-- Whether a range that starts at a date with a year hits a date. -/
def Range.hitsFull (r : Range DateValue) (year : Int) (d : Date) : Bool :=
  let candidate := DateValue.ofDate d
  if r.halfOpen && candidate = r.stop then false
  else if ¬ (r.start ≤ candidate ∧ candidate ≤ r.stop) then false
  else r.interval = 1 ||
    match Date.of? year r.start.month r.start.day with
    | some anchor => anchor.daysUntil d % r.interval = 0
    | none => false

/-- The date from which a yearly range counts its days in a given year.  A start on 29 February
counts from the 28th in a year without that day. -/
def DateValue.anchor? (start : DateValue) (year : Int) : Option Date :=
  if start.month = 2 ∧ start.day = 29 ∧ isCalendarLeap year = false then Date.of? year 2 28
  else Date.of? year start.month start.day

/-- Whether a range that starts at a date without a year hits a date. -/
def Range.hitsYearly (r : Range DateValue) (d : Date) : Bool :=
  let candidate := DateValue.yearlessOfDate d
  if r.halfOpen && candidate = r.stop then false
  else
    let inside :=
      if r.isSplit then r.start ≤ candidate ∨ candidate ≤ r.stop
      else r.start ≤ candidate ∧ candidate ≤ r.stop
    if ¬ inside then false
    else r.interval = 1 ||
      let year := if r.isSplit && candidate < r.start then d.year - 1 else d.year
      match r.start.anchor? year with
      | some anchor => anchor.daysUntil d % r.interval = 0
      | none => false

/-- Whether a range of dates hits a date. -/
def Range.hitsDate (r : Range DateValue) (d : Date) : Bool :=
  match r.start.year with
  | some year => r.hitsFull year d
  | none => r.hitsYearly d

/-! ### Groups -/

namespace Group

/-- The rules for the day of the month admit the date.  Without such rules every date is admitted;
with them the month before has to be one of the calendar. -/
def admitsDayOfMonth (g : Group) (d : Date) : Bool :=
  g.daysOfMonth.isEmpty ||
    match d.previousMonthLength? with
    | some length =>
      g.daysOfMonth.admits fun r => (r.countedFromStart d.monthLength).hits length d.day
    | none => false

/-- The rules for the day of the week admit the date. -/
def admitsDayOfWeek (g : Group) (d : Date) : Bool :=
  g.daysOfWeek.admits fun r => r.hits 7 d.weekday

/-- The group admits the date. -/
def admitsDate (g : Group) (d : Date) : Bool :=
  (g.dates.admits fun r => r.hitsDate d) && g.admitsDayOfMonth d && g.admitsDayOfWeek d

/-- The group admits the hour. -/
def admitsHour (g : Group) (hour : Fin 24) : Bool :=
  g.hours.admits fun r => r.hits 24 hour.val

/-- The group admits the minute. -/
def admitsMinute (g : Group) (minute : Fin 60) : Bool :=
  g.minutes.admits fun r => r.hits 60 minute.val

/-- The group admits the second. -/
def admitsSecond (g : Group) (second : Fin 60) : Bool :=
  g.seconds.admits fun r => r.hits 60 second.val

/-- The group admits the time of day. -/
def admitsClock (g : Group) (c : Clock) : Bool :=
  g.admitsHour c.hour && g.admitsMinute c.minute && g.admitsSecond c.second

/-- The group admits the instant, whatever its fraction of a second. -/
def admits (g : Group) (t : Instant) : Bool := g.admitsDate t.date && g.admitsClock t.clock

end Group

end Timetable

/-
**Schedules.**

A schedule is a text and the groups it means; an instant belongs to the schedule if any of the
groups admits it.

Main definitions:

* `groupsOf` — **the groups a text means**, or the error in it;
* `Schedule`, `Schedule.ofText`, `isSchedule` — schedules with their texts;
* `Schedule.next`, `Schedule.previous`, `Schedule.admits` — **the queries**;
* `Schedule.canonical` — the schedule in canonical form.
-/

import Timetable.Error
import Timetable.Program.Reader
import Timetable.Rule.Canonical
import Timetable.Search

set_option relaxedAutoImplicit false
set_option autoImplicit false

namespace Timetable

/-- **The groups a text means**, or the error in it. -/
def groupsOf (text : String) : Except ScheduleError (List Group) :=
  let scan := Scan.ofText text
  match Program.read scan.ending.unread? scan.lexemes with
  | .ok program => .ok program.groups
  | .error fault => .error (ScheduleError.ofFault text scan fault)

/-- Whether a text is a schedule. -/
def isSchedule (text : String) : Bool := (groupsOf text).isOk

/-- A text and the groups it means. -/
structure Schedule where
  source : String
  groups : List Group
  deriving DecidableEq

namespace Schedule

/-- The schedule of a text. -/
def ofText (text : String) : Except ScheduleError Schedule :=
  (groupsOf text).map fun groups => ⟨text, groups⟩

/-- Two schedules mean the same if their groups are equal, however they were written. -/
def sameGroups (s t : Schedule) : Bool := s.groups = t.groups

/-- The canonical text of a schedule. -/
def canonical (s : Schedule) : String := canonicalText s.groups

/-- The nearest instant of the schedule in one direction. -/
def search (s : Schedule) (dir : Direction) (reference : Instant) : Except ScheduleError Instant :=
  match nearest? s.groups dir reference with
  | some t => .ok t
  | none => .error (.noValidTime s.source)

/-- The first instant of the schedule after a reference. -/
def next (s : Schedule) (after : Instant) : Except ScheduleError Instant := s.search .forward after

/-- The last instant of the schedule at or before a reference. -/
def previous (s : Schedule) (atOrBefore : Instant) : Except ScheduleError Instant :=
  s.search .backward atOrBefore

/-- Whether an instant belongs to the schedule, whatever its fraction of a second. -/
def admits (s : Schedule) (t : Instant) : Bool := anyAdmits s.groups t

end Schedule

end Timetable

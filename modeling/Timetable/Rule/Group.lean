/-
**Rules, and groups of rules.**

A calendar page and a clock face show a date and five dials: the day of the month, the day of the
week, the hour, the minute and the second.  A group holds rules for each of them, and an instant
has to satisfy all of them.  The rules for one dial are a list of ranges to include, where the empty
list includes everything, and a list of ranges to exclude.

Main definitions:

* `Dial` — the five dials, with the numbers on each;
* `Kind` — what a rule can be about: dates or a dial;
* `Rules`, `Rules.admits` — ranges to include and to exclude, and the test they amount to;
* `Group`, `Group.rules`, `Group.modify` — the rules of each kind, read and changed by kind;
* `Group.withImpliedDefaults` — dials finer than the finest one with rules are pinned to zero.
-/

import Timetable.Rule.DateValue
import Timetable.Rule.Range

set_option relaxedAutoImplicit false
set_option autoImplicit false

namespace Timetable

/-! ### Dials -/

/-- The numbered dials of a calendar page and a clock. -/
inductive Dial
  | daysOfMonth
  | daysOfWeek
  | hours
  | minutes
  | seconds
  deriving DecidableEq

namespace Dial

/-- The least number on a dial. -/
def low : Dial → Int
  | daysOfMonth | daysOfWeek => 1
  | hours | minutes | seconds => 0

/-- The greatest number on a dial. -/
def high : Dial → Int
  | daysOfMonth => 31
  | daysOfWeek => 7
  | hours => 23
  | minutes | seconds => 59

/-- Whether the dial can also be read from its end, `-1` being the last number. -/
def countsBack : Dial → Bool
  | daysOfMonth => true
  | _ => false

/-- A rule about the dial may name this number. -/
def Takes (d : Dial) (n : Int) : Prop :=
  (d.low ≤ n ∧ n ≤ d.high) ∨ (d.countsBack = true ∧ n < 0 ∧ d.low ≤ -n ∧ -n ≤ d.high)

instance (d : Dial) (n : Int) : Decidable (d.Takes n) :=
  inferInstanceAs (Decidable (_ ∨ _))

end Dial

/-- What a rule can be about. -/
inductive Kind
  | dates
  | dial (d : Dial)
  deriving DecidableEq

namespace Kind

/-- All kinds, in the order in which a group is written. -/
def all : List Kind :=
  [dates, dial .daysOfMonth, dial .daysOfWeek, dial .hours, dial .minutes, dial .seconds]

/-- Whether a rule of this kind may count back from the end. -/
def countsBack : Kind → Bool
  | dates => false
  | dial d => d.countsBack

end Kind

/-! ### Rules -/

/-- Ranges to include and ranges to exclude. -/
structure Rules (α : Type) where
  included : List (Range α) := []
  excluded : List (Range α) := []
  deriving DecidableEq

namespace Rules

variable {α : Type}

/-- The rules with one more range. -/
def push (rs : Rules α) (r : Range α) (exclude : Bool) : Rules α :=
  if exclude then { rs with excluded := rs.excluded ++ [r] }
  else { rs with included := rs.included ++ [r] }

/-- There are no rules. -/
def isEmpty (rs : Rules α) : Bool := rs.included.isEmpty && rs.excluded.isEmpty

/-- The test the rules amount to, for a given membership in ranges: some included range is hit, or
none is given, and no excluded range is hit. -/
def admits (rs : Rules α) (hit : Range α → Bool) : Bool :=
  (rs.included.isEmpty || rs.included.any hit) && !rs.excluded.any hit

theorem admits_iff (rs : Rules α) (hit : Range α → Bool) :
    rs.admits hit = true ↔
      (rs.included = [] ∨ ∃ r ∈ rs.included, hit r = true) ∧
        ∀ r ∈ rs.excluded, hit r = false := by
  simp [admits]

theorem admits_of_isEmpty {rs : Rules α} (h : rs.isEmpty = true) (hit : Range α → Bool) :
    rs.admits hit = true := by
  simp_all [isEmpty, admits]

end Rules

/-! ### Groups -/

/-- Rules for the date and for each dial, all of which an instant has to satisfy. -/
structure Group where
  dates : Rules DateValue := {}
  daysOfMonth : Rules Int := {}
  daysOfWeek : Rules Int := {}
  hours : Rules Int := {}
  minutes : Rules Int := {}
  seconds : Rules Int := {}
  deriving DecidableEq

namespace Group

/-- The rules for a dial. -/
def rules (g : Group) : Dial → Rules Int
  | .daysOfMonth => g.daysOfMonth
  | .daysOfWeek => g.daysOfWeek
  | .hours => g.hours
  | .minutes => g.minutes
  | .seconds => g.seconds

/-- The group with the rules for one dial changed. -/
def modify (g : Group) (d : Dial) (f : Rules Int → Rules Int) : Group :=
  match d with
  | .daysOfMonth => { g with daysOfMonth := f g.daysOfMonth }
  | .daysOfWeek => { g with daysOfWeek := f g.daysOfWeek }
  | .hours => { g with hours := f g.hours }
  | .minutes => { g with minutes := f g.minutes }
  | .seconds => { g with seconds := f g.seconds }

@[simp] theorem dates_modify (g : Group) (d : Dial) (f : Rules Int → Rules Int) :
    (g.modify d f).dates = g.dates := by cases d <;> rfl

@[simp] theorem rules_modify_self (g : Group) (d : Dial) (f : Rules Int → Rules Int) :
    (g.modify d f).rules d = f (g.rules d) := by cases d <;> rfl

theorem rules_modify_of_ne (g : Group) {d e : Dial} (h : e ≠ d) (f : Rules Int → Rules Int) :
    (g.modify d f).rules e = g.rules e := by
  cases d <;> cases e <;> first | rfl | exact absurd rfl h

/-- The group with one more range of dates. -/
def pushDates (g : Group) (r : Range DateValue) (exclude : Bool) : Group :=
  { g with dates := g.dates.push r exclude }

/-- The group with one more range for a dial. -/
def pushDial (g : Group) (d : Dial) (r : Range Int) (exclude : Bool) : Group :=
  g.modify d (·.push r exclude)

/-- The group has no rules at all. -/
def isEmpty (g : Group) : Bool :=
  g.dates.isEmpty && g.daysOfMonth.isEmpty && g.daysOfWeek.isEmpty && g.hours.isEmpty &&
    g.minutes.isEmpty && g.seconds.isEmpty

/-- Seconds without rules are pinned to zero; then so are minutes without rules, and then hours
without rules.  A dial with rules ends the chain, so that `min(5)` means every hour. -/
def withImpliedDefaults (g : Group) : Group :=
  let zero : Rules Int := { included := [Range.single 0] }
  if !g.seconds.isEmpty then g
  else if !g.minutes.isEmpty then { g with seconds := zero }
  else if !g.hours.isEmpty then { g with seconds := zero, minutes := zero }
  else { g with seconds := zero, minutes := zero, hours := zero }

end Group

end Timetable

/-
**Schedules as written, and the groups they mean.**

A schedule is a list of items: groups of expressions in braces, and loose expressions outside any
braces.  An expression gives arguments for one kind of rule.  An argument may leave out a good deal:
the end of a range, the interval, or, with a wildcard, the range itself; its meaning as a range
depends on the domain of its kind.  All loose expressions of a schedule belong to one group, which
stands where the first of them stands.

Main definitions:

* `Extent`, `Argument` — the values an argument covers as written, and the argument;
* `Argument.range` — the range an argument means in its domain;
* `Expression`, `Item`, `Program` — the written schedule;
* `Group.ofExpressions` — the rules that several expressions give together;
* `Program.gathered` — the expressions of each group, loose ones gathered;
* `Program.groups` — **the groups a schedule means**.
-/

import Timetable.Rule.Group

set_option relaxedAutoImplicit false
set_option autoImplicit false

namespace Timetable

/-! ### Arguments -/

/-- The values an argument covers, before its interval: all, those from one value on, or those
between two. -/
inductive Extent (α : Type)
  | wildcard
  | value (start : α)
  | range (start stop : α) (halfOpen : Bool)
  deriving DecidableEq

/-- An argument as written. -/
structure Argument (α : Type) where
  excluded : Bool
  extent : Extent α
  interval : Option Nat
  deriving DecidableEq

/-- The range an argument means in a domain.  A single value with an interval runs to the end of
the domain, so that `5%10` on a dial of minutes means 5, 15, …, 55 and not just 5. -/
def Argument.range {α : Type} (a : Argument α) (low high : α) : Range α :=
  match a.extent, a.interval with
  | .wildcard, interval => Range.of low high false (interval.getD 1)
  | .range start stop halfOpen, interval => Range.of start stop halfOpen (interval.getD 1)
  | .value start, some interval => Range.of start high false interval
  | .value start, none => Range.single start

/-- The range of dates an argument means.  Without an end it runs to the last date with a year if
its start has one, and to the end of the year otherwise. -/
def Argument.dateRange (a : Argument DateValue) : Range DateValue :=
  let fullStart := match a.extent with
    | .wildcard => false
    | .value start | .range start _ _ => start.isFull
  a.range DateValue.firstOfYear (DateValue.lastOf fullStart)

/-- The range of numbers on a dial an argument means. -/
def Argument.dialRange (a : Argument Int) (d : Dial) : Range Int := a.range d.low d.high

/-! ### Expressions and items -/

/-- Arguments for one kind of rule. -/
inductive Expression
  | dates (arguments : List (Argument DateValue))
  | dial (d : Dial) (arguments : List (Argument Int))
  deriving DecidableEq

/-- A group in braces or a loose expression. -/
inductive Item
  | braced (expressions : List Expression)
  | loose (expression : Expression)
  deriving DecidableEq

/-- A schedule as written. -/
abbrev Program := List Item

/-! ### Meaning -/

/-- The group with the rules of one more expression. -/
def Group.add (g : Group) : Expression → Group
  | .dates as => as.foldl (fun g a => g.pushDates a.dateRange a.excluded) g
  | .dial d as => as.foldl (fun g a => g.pushDial d (a.dialRange d) a.excluded) g

/-- The rules that several expressions give together. -/
def Group.ofExpressions (es : List Expression) : Group := es.foldl Group.add {}

/-- The expression of a loose item. -/
def Item.loose? : Item → Option Expression
  | loose e => some e
  | braced _ => none

/-- The expressions of a group in braces. -/
def Item.braced? : Item → Option (List Expression)
  | braced es => some es
  | loose _ => none

namespace Program

/-- The expressions of each group.  At the first loose expression all loose ones are gathered. -/
def gathered : Program → List (List Expression)
  | [] => []
  | .braced es :: rest => es :: gathered rest
  | .loose e :: rest => (e :: rest.filterMap Item.loose?) :: rest.filterMap Item.braced?

/-- **The groups a schedule means.** -/
def groups (p : Program) : List Group :=
  p.gathered.map fun es => (Group.ofExpressions es).withImpliedDefaults

end Program

end Timetable

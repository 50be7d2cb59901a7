/-
**Names of kinds and of days of the week.**

Every kind of rule has several names, one of which is used when a rule is written out, and every
day of the week has a few.  Letter case does not matter; case is that of the letters A to Z only.

Main definitions:

* `foldCase` — a word in lower case;
* `Kind.name`, `Kind.names`, `Kind.ofName?` — the written name of a kind, all of its names, and the
  kind a word names;
* `dayNames`, `dayOfWeek?` — the names of the days, and the number of the day a word names.
-/

import Timetable.Rule.Group

set_option relaxedAutoImplicit false
set_option autoImplicit false

namespace Timetable

/-- A word with its letters A to Z in lower case. -/
def foldCase (word : List Char) : List Char := word.map Char.toLower

namespace Kind

/-- The name a kind is written with. -/
def name : Kind → String
  | dates => "dates"
  | dial .daysOfMonth => "dom"
  | dial .daysOfWeek => "dow"
  | dial .hours => "hours"
  | dial .minutes => "minutes"
  | dial .seconds => "seconds"

/-- The names of a kind, in lower case. -/
def names : Kind → List String
  | dates => ["date", "dates"]
  | dial .daysOfMonth => ["dom", "dayofmonth", "daysofmonth"]
  | dial .daysOfWeek => ["day", "days", "dow", "dayofweek", "daysofweek"]
  | dial .hours => ["h", "hour", "hours", "hourofday", "hoursofday"]
  | dial .minutes => ["m", "min", "minute", "minutes", "minuteofhour", "minutesofhour"]
  | dial .seconds => ["s", "sec", "second", "seconds", "secondofminute", "secondsofminute"]

/-- The kind a word names. -/
def ofName? (word : List Char) : Option Kind :=
  all.find? fun kind => kind.names.any fun name => name.toList = foldCase word

end Kind

/-- The days of the week by number, each with its names in lower case. -/
def dayNames : List (Int × List String) :=
  [(1, ["su", "sun", "sunday"]),
   (2, ["mo", "mon", "monday"]),
   (3, ["tu", "tue", "tues", "tuesday"]),
   (4, ["we", "wed", "wednesday"]),
   (5, ["th", "thu", "thur", "thurs", "thursday"]),
   (6, ["fr", "fri", "friday"]),
   (7, ["sa", "sat", "saturday"])]

/-- The number of the day of the week a word names, from `1` for Sunday to `7` for Saturday. -/
def dayOfWeek? (word : List Char) : Option Int :=
  (dayNames.find? fun day => day.2.any fun name => name.toList = foldCase word).map Prod.fst

end Timetable

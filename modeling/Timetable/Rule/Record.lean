/-
**Rules as JSON records.**

Every part of a rule is a record with a fixed order of fields; a date without a year has the year
`null`.

Main definitions:

* `DateValue.json`, `Range.json`, `Rules.json`, `Group.json` — the records.
-/

import Timetable.Rule.Group
import Timetable.Text.Json

set_option relaxedAutoImplicit false
set_option autoImplicit false

namespace Timetable

/-- A date as a record. -/
def DateValue.json (v : DateValue) : Json :=
  .object [("year", (v.year.map Json.number).getD .null), ("month", .number v.month),
    ("day", .number v.day)]

/-- A range as a record. -/
def Range.json {α : Type} (write : α → Json) (r : Range α) : Json :=
  .object [("start", write r.start), ("end", write r.stop), ("half_open", .bool r.halfOpen),
    ("interval", .number r.interval)]

/-- Rules as a record. -/
def Rules.json {α : Type} (write : α → Json) (rs : Rules α) : Json :=
  .object [("include", .array (rs.included.map (Range.json write))),
    ("exclude", .array (rs.excluded.map (Range.json write)))]

/-- A group as a record. -/
def Group.json (g : Group) : Json :=
  .object [("dates", g.dates.json DateValue.json),
    ("days_of_month", g.daysOfMonth.json .number),
    ("days_of_week", g.daysOfWeek.json .number),
    ("hours", g.hours.json .number),
    ("minutes", g.minutes.json .number),
    ("seconds", g.seconds.json .number)]

end Timetable

/-
**The command line.**

The program is run with one way of reading arguments and one way of reading and writing times.

Main definitions:

* `Conventions.standard` — the conventions the program is run with;
* `command` — **the command with these conventions**.
-/

import Timetable.Calendar.InstantText
import Timetable.Command.Arguments

set_option relaxedAutoImplicit false
set_option autoImplicit false

namespace Timetable

/-- The conventions the program is run with. -/
def Conventions.standard : Conventions where
  readArguments := Request.read
  readTime text :=
    match Instant.read? text.toList with
    | some t => .ok t
    | none => .error ("'" ++ text ++ "' is not a date and time")
  writeTime := Instant.text

/-- **The command with these conventions.** -/
def command : Instant → List String → Outcome := Conventions.standard.command

end Timetable

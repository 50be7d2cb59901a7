/-
**Errors as they are shown.**

A text that is no schedule is either malformed at some place or holds no expression, and a search
may find no time.  A malformed text is shown with its message, a window of the text around the
place, and a caret under the character there.

Main definitions:

* `ScheduleError`, `ScheduleError.ofFault` — the three errors, and the error a fault amounts to;
* `ScheduleError.message`, `ScheduleError.index`, `ScheduleError.input` — the words, the place and
  the text of an error;
* `charIndex?` — the number of characters before a byte of a text;
* `ScheduleError.rich` — **the full display of an error**.
-/

import Timetable.Program.Fault
import Timetable.Token.Scan

set_option relaxedAutoImplicit false
set_option autoImplicit false

namespace Timetable

/-- What can go wrong with a schedule. -/
inductive ScheduleError
  /-- The text is malformed at a place, or names a value that is not allowed there. -/
  | malformed (message : String) (span : Span) (input : String)
  /-- The text holds no expression where there has to be one. -/
  | empty (message : String)
  /-- A search found no time for the schedule of this text. -/
  | noValidTime (source : String)
  deriving DecidableEq

namespace ScheduleError

/-- The error that a fault in a text amounts to. -/
def ofFault (text : String) (scan : Scan) (fault : Fault) : ScheduleError :=
  if fault.cause = .noExpression then empty (fault.cause.message 0)
  else
    let span := scan.spanFromEnd fault.left
    malformed (fault.cause.message span.start) span text

/-- The words of an error. -/
def message : ScheduleError → String
  | malformed message _ _ => message
  | empty message => message
  | noValidTime source => "no valid time found for schedule '" ++ source ++ "'"

/-- The byte of the text at which it is malformed. -/
def index : ScheduleError → Option Nat
  | malformed _ span _ => some span.start
  | empty _ | noValidTime _ => none

/-- The text the error is about. -/
def input : ScheduleError → Option String
  | malformed _ _ input | noValidTime input => some input
  | empty _ => none

end ScheduleError

/-! ### The full display -/

/-- The characters shown before the place of an error. -/
def contextBefore : Nat := 20

/-- The characters shown from the place of an error on. -/
def contextAfter : Nat := 30

/-- The number of characters before a byte of a text, if a character starts or the text ends at
that byte. -/
def charIndex? : List Char → Nat → Option Nat
  | _, 0 => some 0
  | [], _ + 1 => none
  | c :: cs, n + 1 =>
    if n + 1 < c.utf8Size then none else (charIndex? cs (n + 1 - c.utf8Size)).map (· + 1)

/-- The window of a text around a character, with white space shown as spaces. -/
def window (cs : List Char) (place : Nat) : List Char :=
  let first := place - contextBefore
  ((cs.take (place + contextAfter)).drop first).map fun c => if isWhiteSpace c then ' ' else c

/-- The line of spaces and a caret that points at a character of the window. -/
def caretLine (place : Nat) : List Char :=
  List.replicate (place - (place - contextBefore) + 2) ' ' ++ ['^']

/-- **The full display of an error.**  A malformed text is shown around its place, which is the end
of the text if no character starts at the byte in question. -/
def ScheduleError.rich : ScheduleError → String
  | malformed message span input =>
    let cs := input.toList
    let place := (charIndex? cs span.start).getD cs.length
    "error: " ++ message ++ "\n  " ++ String.ofList (window cs place) ++ "\n" ++
      String.ofList (caretLine place)
  | error => "error: " ++ error.message

end Timetable

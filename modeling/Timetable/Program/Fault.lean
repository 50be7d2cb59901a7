/-
**What can be wrong with a schedule.**

A fault is a cause and a place.  The place is given by the number of lexemes from the offending one
to the end, so it does not depend on how a text is laid out; no lexemes left is the place where
reading the text ends.

Main definitions:

* `Cause`, `Cause.message` — what is wrong, and the words for it;
* `Fault` — a cause at a place;
* `Reader` — a way of reading from the front of a list of lexemes.
-/

import Timetable.Rule.Group
import Timetable.Token

set_option relaxedAutoImplicit false
set_option autoImplicit false

namespace Timetable

/-! ### Causes -/

/-- What can be wrong with a schedule. -/
inductive Cause
  /-- There is no expression in the schedule or in one of its groups. -/
  | noExpression
  /-- No lexeme starts where this text is left. -/
  | unreadable (text : List Char)
  /-- A lexeme, or with `none` the end of the text, stands where others are expected. -/
  | unexpected (found : Option Form) (expected : List Form)
  /-- The name of an expression is not that of a kind. -/
  | unknownKind (name : List Char)
  /-- A number needs more than 64 bits. -/
  | outOfRange (numeral : Numeral)
  /-- A number is not on the dial. -/
  | notOnDial (d : Dial) (n : Int)
  /-- A word does not name a day of the week. -/
  | unknownDay (name : List Char)
  /-- An interval is not positive. -/
  | notAnInterval (n : Int)
  /-- An interval needs more than 32 bits. -/
  | intervalTooLarge (n : Int)
  /-- A wildcard without an interval is excluded. -/
  | excludedWildcard
  /-- A half-open range ends where it starts. -/
  | emptyRange
  /-- One end of a range of dates has a year and the other has none. -/
  | mixedDates
  /-- A range of dates with years ends before it starts. -/
  | reversedDates
  /-- A rule may not name this year. -/
  | badYear (year : Int)
  /-- There is no such month. -/
  | badMonth (month : Int)
  /-- A month of this many days has no such day. -/
  | badDay (day days : Int)
  deriving DecidableEq

/-- The lexemes that were expected, as a message lists them. -/
def expectedText : List Form → String
  | [form] => form.name
  | forms => "one of " ++ String.intercalate ", " (forms.map Form.name)

/-- A sort of lexeme, or the end of the text, as a message names it. -/
def foundText : Option Form → String
  | some form => form.name
  | none => "end of input"

/-- The words for a cause that was found at the byte `index` of a text. -/
def Cause.message (index : Nat) : Cause → String
  | noExpression => "schedule must contain at least one expression"
  | unreadable text => "syntax error near: " ++ String.ofList text
  | unexpected found expected =>
    "unexpected " ++ foundText found ++ " at index " ++ toString index ++ ", expected " ++
      expectedText expected
  | unknownKind name => "expression type '" ++ String.ofList name ++ "' is not supported"
  | outOfRange numeral => "integer " ++ String.ofList numeral.spelling ++ " is out of range"
  | notOnDial d n =>
    "value cannot be " ++ toString n ++ ": must be between " ++ toString d.low ++ " and " ++
      toString d.high
  | unknownDay name => "unknown integer or day-of-week literal '" ++ String.ofList name ++ "'"
  | notAnInterval n => toString n ++ " is not a valid interval"
  | intervalTooLarge n => "interval " ++ toString n ++ " is too large"
  | excludedWildcard => "wildcards can't be excluded with '!' unless they have an interval (%)"
  | emptyRange => "start and end values of a half-open range cannot be equal"
  | mixedDates => "cannot mix full and partial dates in a date range"
  | reversedDates => "end date of range is before the start date"
  | badYear year =>
    "year " ++ toString year ++ " is not valid: must be between " ++ toString firstRuleYear ++
      " and " ++ toString lastRuleYear
  | badMonth month => "month " ++ toString month ++ " is not valid: must be between 1 and 12"
  | badDay day days =>
    toString day ++ " is not a valid day for the month specified: must be between 1 and " ++
      toString days

/-! ### Faults -/

/-- A cause at a place, which is given by the number of lexemes from there to the end. -/
structure Fault where
  cause : Cause
  left : Nat
  deriving DecidableEq

/-- A way of reading from the front of a list of lexemes: it yields a value and the lexemes behind
it, or a fault. -/
abbrev Reader (α : Type) := List Lexeme → Except Fault (α × List Lexeme)

/-- A fault at the first of the given lexemes. -/
def faultAt {α : Type} (cause : Cause) (ls : List Lexeme) : Except Fault α :=
  .error ⟨cause, ls.length⟩

/-- The fault that the first of the given lexemes is none of those expected. -/
def unexpectedAt {α : Type} (expected : List Form) (ls : List Lexeme) : Except Fault α :=
  faultAt (.unexpected (ls.head?.map Lexeme.form) expected) ls

end Timetable

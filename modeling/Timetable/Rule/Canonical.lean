/-
**The canonical form of rules.**

Groups are written with their braces, with every kind of rule that has any in a fixed order and
under a fixed name, and with implied rules spelled out.  The form is built as a list of lexemes; its
text has a space behind every comma and no other.

Main definitions:

* `DateValue.lexemes`, `Range.lexemes`, `Rules.lexemes`, `Group.lexemes` — the canonical lexemes;
* `canonical` — those of several groups;
* `Group.text`, `canonicalText` — the canonical forms as texts.
-/

import Timetable.Rule.Name
import Timetable.Token

set_option relaxedAutoImplicit false
set_option autoImplicit false

namespace Timetable

/-- Lists of lexemes one behind the other, with a comma between each two. -/
def commaSeparated : List (List Lexeme) → List Lexeme
  | [] => []
  | [ls] => ls
  | ls :: rest => ls ++ .symbol .comma :: commaSeparated rest

/-- A number as a lexeme. -/
def integerLexeme (n : Int) : Lexeme := .integer (Numeral.ofInt n)

/-- A date: the year, if it has one, the month and the day, with slashes between them. -/
def DateValue.lexemes (v : DateValue) : List Lexeme :=
  (match v.year with
    | some year => [integerLexeme year, .symbol .slash]
    | none => []) ++ [integerLexeme v.month, .symbol .slash, integerLexeme v.day]

namespace Range

variable {α : Type} [DecidableEq α]

/-- A range: its value if it is the range of one value, else both its ends and its interval unless
that is one. -/
def lexemes (write : α → List Lexeme) (r : Range α) : List Lexeme :=
  if r.start = r.stop ∧ r.halfOpen = false ∧ r.interval = 1 then write r.start
  else
    write r.start ++ .symbol (if r.halfOpen then .rangeHalfOpen else .rangeInclusive) ::
      write r.stop ++
        if r.interval = 1 then [] else [.symbol .interval, integerLexeme r.interval]

/-- A range of dates. -/
def dateLexemes (r : Range DateValue) : List Lexeme := r.lexemes DateValue.lexemes

/-- A range of numbers on a dial. -/
def dialLexemes (r : Range Int) : List Lexeme := r.lexemes fun n => [integerLexeme n]

end Range

/-- The name of the kind and the ranges to include and to exclude; nothing if there are none. -/
def Rules.lexemes {α : Type} (kind : Kind) (write : Range α → List Lexeme) (rs : Rules α) :
    List (List Lexeme) :=
  if rs.isEmpty then []
  else
    let arguments := rs.included.map write ++ rs.excluded.map fun r => .symbol .not :: write r
    [.word kind.name.toList :: .symbol .openParen :: commaSeparated arguments ++
      [.symbol .closeParen]]

/-- A group in braces. -/
def Group.lexemes (g : Group) : List Lexeme :=
  let dial (d : Dial) := (g.rules d).lexemes (.dial d) Range.dialLexemes
  .symbol .openBrace ::
    commaSeparated (g.dates.lexemes .dates Range.dateLexemes ++ dial .daysOfMonth ++
      dial .daysOfWeek ++ dial .hours ++ dial .minutes ++ dial .seconds) ++
    [.symbol .closeBrace]

/-- **The canonical form of several groups.** -/
def canonical (groups : List Group) : List Lexeme := commaSeparated (groups.map Group.lexemes)

/-- The text of a date. -/
def DateValue.text (v : DateValue) : String := String.ofList (spell v.lexemes)

/-- The text of a range of dates. -/
def Range.dateText (r : Range DateValue) : String := String.ofList (spell r.dateLexemes)

/-- The text of a range of numbers. -/
def Range.dialText (r : Range Int) : String := String.ofList (spell r.dialLexemes)

/-- The canonical text of a group. -/
def Group.text (g : Group) : String := String.ofList (spell g.lexemes)

/-- **The canonical text of several groups.** -/
def canonicalText (groups : List Group) : String := String.ofList (spell (canonical groups))

end Timetable

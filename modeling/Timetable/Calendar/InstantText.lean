/-
**The written form of an instant.**

An instant is written `2023-03-01T08:30:00`, with a fraction of a second behind the seconds if
there is one.  A year has four digits; a year before the year 0 has a sign and six digits.  Reading
is more liberal than writing: the time may be left out, its seconds may be left out, a space may
stand for the `T`, and a second numbered 60 is taken for the 59th.  The program is run with these
forms; what is shown of the command holds for others as well.

Main definitions:

* `padded` — a number written with at least a given number of digits;
* `Instant.written`, `Instant.text` — an instant as characters and as a string;
* `takeDigits?`, `takeChar?` — the two steps the reader is made of;
* `Instant.read?` — the instant a text names.
-/

import Timetable.Calendar.Instant

set_option relaxedAutoImplicit false
set_option autoImplicit false

namespace Timetable

/-! ### Writing -/

/-- The decimal digits of a number, with zeros in front up to a least width. -/
def padded (width n : Nat) : List Char := (Nat.toDigits 10 n).leftpad width '0'

/-- A year: four digits, or a sign and six digits before the year 0. -/
def writtenYear (year : Int) : List Char :=
  if year < 0 then '-' :: padded 6 year.natAbs else padded 4 year.natAbs

/-- A date as year, month and day. -/
def Date.written (d : Date) : List Char :=
  writtenYear d.year ++ '-' :: padded 2 d.month.natAbs ++ '-' :: padded 2 d.day.natAbs

/-- A time of day as hour, minute and second. -/
def Clock.written (c : Clock) : List Char :=
  padded 2 c.hour ++ ':' :: padded 2 c.minute ++ ':' :: padded 2 c.second

/-- A fraction of a second: nothing if it is zero, else a point and its digits without the zeros
at the end. -/
def writtenFraction (nano : Nat) : List Char :=
  if nano = 0 then [] else '.' :: ((padded 9 nano).reverse.dropWhile (· = '0')).reverse

/-- An instant as characters. -/
def Instant.written (t : Instant) : List Char :=
  t.date.written ++ 'T' :: t.clock.written ++ writtenFraction t.nano

/-- An instant as text. -/
def Instant.text (t : Instant) : String := String.ofList t.written

/-! ### Reading -/

/-- The number written by the first `n` characters, which must be digits, and what follows. -/
def takeDigits? (n : Nat) (cs : List Char) : Option (Nat × List Char) :=
  let digits := cs.take n
  if digits.length = n ∧ digits.all Char.isDigit then
    some (Nat.ofDigitChars 10 digits 0, cs.drop n)
  else none

/-- What follows a given first character. -/
def takeChar? (c : Char) : List Char → Option (List Char)
  | [] => none
  | d :: rest => if d = c then some rest else none

/-- A year of four digits, or of a sign and six digits; the year 0 has no minus sign. -/
def readYear? : List Char → Option (Int × List Char)
  | '-' :: rest => do
    let (n, rest) ← takeDigits? 6 rest
    if n = 0 then none else some (-n, rest)
  | '+' :: rest => do
    let (n, rest) ← takeDigits? 6 rest
    some (n, rest)
  | cs => do
    let (n, rest) ← takeDigits? 4 cs
    some (n, rest)

/-- A date, and what follows it. -/
def Date.read? (cs : List Char) : Option (Date × List Char) := do
  let (year, cs) ← readYear? cs
  let cs ← takeChar? '-' cs
  let (month, cs) ← takeDigits? 2 cs
  let cs ← takeChar? '-' cs
  let (day, cs) ← takeDigits? 2 cs
  let date ← Date.of? year month day
  some (date, cs)

/-- The nanoseconds of a fraction of one to nine digits, without its point. -/
def readFraction? (digits : List Char) : Option Nat :=
  if digits.isEmpty ∨ 9 < digits.length ∨ ¬ digits.all Char.isDigit then none
  else some (Nat.ofDigitChars 10 (digits.rightpad 9 '0') 0)

/-- What may follow hours and minutes: nothing, or seconds with or without a fraction. -/
def readSecond? : List Char → Option (Nat × Nat)
  | [] => some (0, 0)
  | ':' :: cs => do
    let (second, cs) ← takeDigits? 2 cs
    let second := if second = 60 then 59 else second
    match cs with
    | [] => some (second, 0)
    | '.' :: digits => (readFraction? digits).map fun nano => (second, nano)
    | _ => none
  | _ => none

/-- The instant a text names: a date, or a date and a time of day. -/
def Instant.read? (cs : List Char) : Option Instant := do
  let (date, cs) ← Date.read? cs
  match cs with
  | [] => some (Instant.atSecond date Clock.first)
  | sep :: cs =>
    if sep = 'T' ∨ sep = ' ' then do
      let (hour, cs) ← takeDigits? 2 cs
      let cs ← takeChar? ':' cs
      let (minute, cs) ← takeDigits? 2 cs
      let (second, nano) ← readSecond? cs
      Instant.of? date.year date.month date.day hour minute second nano
    else none

end Timetable

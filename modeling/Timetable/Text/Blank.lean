/-
**White space.**

Two different sets of characters count as white space.  Between the lexemes of a schedule there may
be spaces, tabs and line ends and nothing else.  Where a piece of a text is shown to a reader, every
character with the property `White_Space` is shown as a space.

Main definitions:

* `isBlank` — the characters that may stand between lexemes;
* `isWhiteSpace` — the characters with the property.
-/

set_option relaxedAutoImplicit false
set_option autoImplicit false

namespace Timetable

/-- A space, a tab or one of the two characters of a line end. -/
def isBlank (c : Char) : Bool := c = ' ' || c = '\t' || c = '\r' || c = '\n'

/-- The character has the property `White_Space`. -/
def isWhiteSpace (c : Char) : Bool :=
  let n := c.toNat
  (0x09 ≤ n && n ≤ 0x0D) || n = 0x20 || n = 0x85 || n = 0xA0 || n = 0x1680 ||
    (0x2000 ≤ n && n ≤ 0x200A) || n = 0x2028 || n = 0x2029 || n = 0x202F || n = 0x205F || n = 0x3000

end Timetable

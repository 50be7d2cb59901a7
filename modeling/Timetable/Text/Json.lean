/-
**JSON texts.**

Values are written in one of two layouts: compact, without any space, or indented by two spaces a
level, with one item to a line.  Fields keep their order.  In a string a quote, a backslash and the
control characters below the space are escaped, and everything else stands for itself.

Main definitions:

* `Json` — the values that are written;
* `Json.escape`, `Json.quoted` — characters and strings;
* `Json.compact`, `Json.pretty` — the two layouts.
-/

set_option relaxedAutoImplicit false
set_option autoImplicit false

namespace Timetable

/-- A JSON value with whole numbers. -/
inductive Json
  | null
  | bool (b : Bool)
  | number (n : Int)
  | string (s : String)
  | array (items : List Json)
  | object (fields : List (String × Json))

namespace Json

/-! ### Strings -/

/-- A character as it is written in a string. -/
def escape (c : Char) : List Char :=
  if c = '"' then ['\\', '"']
  else if c = '\\' then ['\\', '\\']
  else if c = '\n' then ['\\', 'n']
  else if c = '\r' then ['\\', 'r']
  else if c = '\t' then ['\\', 't']
  else if c.toNat = 0x08 then ['\\', 'b']
  else if c.toNat = 0x0C then ['\\', 'f']
  else if c.toNat < 0x20 then
    ['\\', 'u'] ++ (Nat.toDigits 16 c.toNat).leftpad 4 '0'
  else [c]

/-- A string in quotes. -/
def quoted (s : String) : String := "\"" ++ String.ofList (s.toList.flatMap escape) ++ "\""

/-! ### Layouts -/

/-- Brackets around items, with a comma between each two. -/
def bracketed (opening closing : Char) (items : List String) : String :=
  String.singleton opening ++ String.intercalate "," items ++ String.singleton closing

mutual

/-- A value without any space. -/
def compact : Json → String
  | null => "null"
  | bool b => if b then "true" else "false"
  | number n => toString n
  | string s => quoted s
  | array items => bracketed '[' ']' (compactItems items)
  | object fields => bracketed '{' '}' (compactFields fields)

/-- The items of an array without any space. -/
def compactItems : List Json → List String
  | [] => []
  | v :: vs => v.compact :: compactItems vs

/-- The fields of an object without any space. -/
def compactFields : List (String × Json) → List String
  | [] => []
  | (key, v) :: fields => (quoted key ++ ":" ++ v.compact) :: compactFields fields

end

/-- A line break and the indentation of a level. -/
def lineBreak (level : Nat) : String := "\n".pushn ' ' (2 * level)

/-- Brackets around items, each on a line of its own; no items take no lines. -/
def indented (level : Nat) (opening closing : Char) (items : List String) : String :=
  if items.isEmpty then String.ofList [opening, closing]
  else
    let separator := "," ++ lineBreak (level + 1)
    String.singleton opening ++ lineBreak (level + 1) ++ String.intercalate separator items ++
      lineBreak level ++ String.singleton closing

mutual

/-- A value at a level of indentation. -/
def prettyAt (level : Nat) : Json → String
  | null => "null"
  | bool b => if b then "true" else "false"
  | number n => toString n
  | string s => quoted s
  | array items => indented level '[' ']' (prettyItems (level + 1) items)
  | object fields => indented level '{' '}' (prettyFields (level + 1) fields)

/-- The items of an array at a level of indentation. -/
def prettyItems (level : Nat) : List Json → List String
  | [] => []
  | v :: vs => prettyAt level v :: prettyItems level vs

/-- The fields of an object at a level of indentation. -/
def prettyFields (level : Nat) : List (String × Json) → List String
  | [] => []
  | (key, v) :: fields => (quoted key ++ ": " ++ prettyAt level v) :: prettyFields level fields

end

/-- A value with one item to a line. -/
def pretty (v : Json) : String := v.prettyAt 0

end Json

end Timetable

/-
**Lexemes, and the tokens of a text.**

A lexeme is a symbol, a word of the letters A to Z, or a decimal number.  It determines its own
spelling, so that a token — a lexeme at its place in a text — is a lexeme and a span of bytes.

Main definitions:

* `Symbol`, `Symbol.spelling` — the marks of punctuation and how each is spelled;
* `Numeral`, `Numeral.value`, `Numeral.ofInt` — numbers as written, and their values;
* `Lexeme`, `Lexeme.spelling` — the three sorts of lexeme;
* `Form`, `Form.name` — the sort of a lexeme as messages name it;
* `Span`, `Token` — places in a text and lexemes at their places;
* `spell` — a list of lexemes as a text, with a space behind every comma.

Main results:

* `Numeral.value_ofInt` — a number written out has the value it had.
-/

set_option relaxedAutoImplicit false
set_option autoImplicit false

namespace Timetable

/-! ### Symbols -/

/-- The marks of punctuation. -/
inductive Symbol
  | rangeHalfOpen
  | rangeInclusive
  | interval
  | not
  | openParen
  | closeParen
  | openBrace
  | closeBrace
  | slash
  | comma
  | wildcard
  deriving DecidableEq

namespace Symbol

/-- How a symbol is spelled. -/
def spelling : Symbol → List Char
  | rangeHalfOpen => ['.', '.', '<']
  | rangeInclusive => ['.', '.']
  | interval => ['%']
  | not => ['!']
  | openParen => ['(']
  | closeParen => [')']
  | openBrace => ['{']
  | closeBrace => ['}']
  | slash => ['/']
  | comma => [',']
  | wildcard => ['*']

/-- All symbols, each before those whose spelling its own begins with. -/
def all : List Symbol :=
  [rangeHalfOpen, rangeInclusive, interval, not, openParen, closeParen, openBrace, closeBrace,
   slash, comma, wildcard]

theorem mem_all (s : Symbol) : s ∈ all := by cases s <;> decide

theorem spelling_ne_nil (s : Symbol) : s.spelling ≠ [] := by cases s <;> decide

end Symbol

/-! ### Numbers -/

/-- A number as written: a sign and decimal digits, any number of which may be zeros in front. -/
structure Numeral where
  negative : Bool
  digits : List Char
  deriving DecidableEq

namespace Numeral

/-- How a number is spelled. -/
def spelling (n : Numeral) : List Char := (if n.negative then ['-'] else []) ++ n.digits

/-- The number written. -/
def value (n : Numeral) : Int :=
  let size : Int := Nat.ofDigitChars 10 n.digits 0
  if n.negative then -size else size

/-- A number written without needless zeros. -/
def ofInt (n : Int) : Numeral := ⟨n < 0, Nat.toDigits 10 n.natAbs⟩

@[simp] theorem value_ofInt (n : Int) : (ofInt n).value = n := by
  simp only [value, ofInt, Nat.ofDigitChars_toDigits (show 1 < 10 by decide) (Nat.le_refl 10),
    decide_eq_true_eq]
  split <;> omega

end Numeral

/-! ### Lexemes -/

/-- The smallest parts of a text. -/
inductive Lexeme
  | symbol (s : Symbol)
  | word (letters : List Char)
  | integer (n : Numeral)
  deriving DecidableEq

/-- The sort of a lexeme. -/
inductive Form
  | symbol (s : Symbol)
  | word
  | integer
  deriving DecidableEq

/-- The sort of a lexeme as it is named in messages. -/
def Form.name : Form → String
  | symbol s => "'" ++ String.ofList s.spelling ++ "'"
  | word => "word"
  | integer => "integer"

namespace Lexeme

/-- The sort of a lexeme. -/
def form : Lexeme → Form
  | symbol s => .symbol s
  | word _ => .word
  | integer _ => .integer

/-- How a lexeme is spelled. -/
def spelling : Lexeme → List Char
  | symbol s => s.spelling
  | word letters => letters
  | integer n => n.spelling

/-- A lexeme as text. -/
def text (l : Lexeme) : String := String.ofList l.spelling

end Lexeme

/-! ### Places in a text -/

/-- A stretch of a text from one byte up to another. -/
structure Span where
  start : Nat
  stop : Nat
  deriving DecidableEq

/-- The text of a span, its two ends joined by two dots. -/
def Span.text (s : Span) : String := toString s.start ++ ".." ++ toString s.stop

/-- A lexeme at its place in a text. -/
structure Token where
  lexeme : Lexeme
  span : Span
  deriving DecidableEq

/-! ### Lexemes written out -/

/-- Lexemes one behind the other, with a space behind every comma. -/
def spell (ls : List Lexeme) : List Char :=
  ls.flatMap fun l => if l = .symbol .comma then [',', ' '] else l.spelling

@[simp] theorem spell_nil : spell [] = [] := rfl

@[simp] theorem spell_append (ls ms : List Lexeme) : spell (ls ++ ms) = spell ls ++ spell ms := by
  simp [spell]

end Timetable

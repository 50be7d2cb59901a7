/-
**Reading a text one token at a time.**

A lexer is asked for one token after another.  It keeps its place in the text and, once it has met a
character where no token starts, that it has failed: it reports the character once and has nothing
to yield from then on.  At the end of the text it has nothing to yield either, however often it is
asked.

Main definitions:

* `Lexer` — a place in a text, and whether reading has failed there;
* `Lexer.next` — **the next token or the error**, and the lexer after it;
* `Lexer.answer` — what the lexer yields when it is asked for the `n`th time;
* `Scan.answers` — the tokens of a text, and the error at the character that ends them.

Main results:

* `Lexer.next_blank`, `Lexer.next_lexeme`, `Lexer.next_unreadable` — the three steps of reading;
* `Lexer.answer_ofText` — **a lexer yields the tokens of the text, then the error, then nothing**.
-/

import Timetable.Error

set_option relaxedAutoImplicit false
set_option autoImplicit false

namespace Timetable

/-- A place in a text: the byte of it, what is left of the text there, and whether reading has
failed. -/
structure Lexer where
  input : String
  offset : Nat
  rest : List Char
  failed : Bool

namespace Lexer

/-- The start of a text. -/
def ofText (text : String) : Lexer := ⟨text, 0, text.toList, false⟩

/-- The place behind the blanks that come next. -/
def skipBlanks (x : Lexer) : Lexer :=
  { x with
    offset := x.offset + (x.rest.takeWhile isBlank).length
    rest := x.rest.dropWhile isBlank }

/-- **The next token or the error**, and the lexer after it. -/
def next (x : Lexer) : Option (Except ScheduleError Token) × Lexer :=
  if x.failed then (none, x)
  else
    let x := x.skipBlanks
    match x.rest with
    | [] => (none, x)
    | c :: rest =>
      match lexeme? (c :: rest) with
      | some (l, after) =>
        let stop := x.offset + l.spelling.length
        (some (.ok ⟨l, ⟨x.offset, stop⟩⟩), { x with offset := stop, rest := after })
      | none =>
        let message := (Cause.unreadable (c :: rest)).message x.offset
        (some (.error (.malformed message ⟨x.offset, x.offset + c.utf8Size⟩ x.input)),
          { x with failed := true })

/-- What the lexer yields when it is asked for the `n`th time, counted from zero. -/
def answer (x : Lexer) : Nat → Option (Except ScheduleError Token)
  | 0 => x.next.1
  | n + 1 => x.next.2.answer n

end Lexer

/-- The tokens, and behind them the error at the character that ends them if there is one. -/
def Scan.answers (s : Scan) (text : String) : List (Except ScheduleError Token) :=
  s.tokens.map .ok ++
    (s.ending.unread?.map fun cs => .error (.ofFault text s ⟨.unreadable cs, 0⟩)).toList

namespace Lexer

variable {text : String} {offset : Nat} {c : Char} {rest after : List Char} {l : Lexeme}

/-! ### Steps -/

theorem next_failed {x : Lexer} (h : x.failed = true) : x.next = (none, x) := by
  rw [next, if_pos h]

theorem next_nil : next ⟨text, offset, [], false⟩ = (none, ⟨text, offset, [], false⟩) := rfl

/-- A blank is passed over. -/
theorem next_blank (h : isBlank c = true) :
    next ⟨text, offset, c :: rest, false⟩ = next ⟨text, offset + 1, rest, false⟩ := by
  have hskip : skipBlanks ⟨text, offset, c :: rest, false⟩ =
      skipBlanks ⟨text, offset + 1, rest, false⟩ := by
    simp only [skipBlanks, List.takeWhile_cons, List.dropWhile_cons, h, if_true, List.length_cons,
      Nat.add_assoc, Nat.add_comm 1]
  simp only [next, hskip, Bool.false_eq_true, if_false]

theorem skipBlanks_of_not_isBlank (h : isBlank c = false) :
    skipBlanks ⟨text, offset, c :: rest, false⟩ = ⟨text, offset, c :: rest, false⟩ := by
  simp [skipBlanks, h]

/-- A lexeme is yielded with its place. -/
theorem next_lexeme (hc : isBlank c = false) (h : lexeme? (c :: rest) = some (l, after)) :
    next ⟨text, offset, c :: rest, false⟩ =
      (some (.ok ⟨l, ⟨offset, offset + l.spelling.length⟩⟩),
        ⟨text, offset + l.spelling.length, after, false⟩) := by
  simp only [next, skipBlanks_of_not_isBlank hc, h, Bool.false_eq_true, if_false]

/-- Where no lexeme starts the error is yielded, and reading has failed. -/
theorem next_unreadable (hc : isBlank c = false) (h : lexeme? (c :: rest) = none) :
    next ⟨text, offset, c :: rest, false⟩ =
      (some (.error (.malformed ((Cause.unreadable (c :: rest)).message offset)
        ⟨offset, offset + c.utf8Size⟩ text)), ⟨text, offset, c :: rest, true⟩) := by
  simp only [next, skipBlanks_of_not_isBlank hc, h, Bool.false_eq_true, if_false]

/-! ### Runs -/

/-- A lexer that yields nothing and stays where it is never yields anything. -/
theorem answer_eq_none {x : Lexer} (h : x.next = (none, x)) (n : Nat) : x.answer n = none := by
  induction n with
  | zero => rw [answer, h]
  | succ n ih => rw [answer, h, ih]

/-- Lexers with the same next step yield the same. -/
theorem answer_congr {x y : Lexer} (h : x.next = y.next) (n : Nat) : x.answer n = y.answer n := by
  cases n with
  | zero => rw [answer, answer, h]
  | succ n => rw [answer, answer, h]

/-- **From any place in a text a lexer yields the tokens from there on, then the error, then
nothing.** -/
theorem answer_eq (text : String) (offset : Nat) (cs : List Char) (n : Nat) :
    (⟨text, offset, cs, false⟩ : Lexer).answer n = ((Scan.ofRest offset cs).answers text)[n]? := by
  fun_induction Scan.ofRest offset cs generalizing n with
  | case1 offset => exact answer_eq_none next_nil n
  | case2 offset c rest hblank ih => exact (answer_congr (next_blank hblank) n).trans (ih n)
  | case3 offset c rest hblank l after hlexeme stop scan ih =>
      have hnext : next ⟨text, offset, c :: rest, false⟩ =
          (some (.ok ⟨l, ⟨offset, stop⟩⟩), ⟨text, stop, after, false⟩) :=
        next_lexeme (by simpa using hblank) hlexeme
      cases n with
      | zero => rw [answer, hnext]; rfl
      | succ n => rw [answer, hnext]; exact ih n
  | case4 offset c rest hblank hnone =>
      have hnext : next ⟨text, offset, c :: rest, false⟩ =
          (some (.error (.malformed ((Cause.unreadable (c :: rest)).message offset)
            ⟨offset, offset + c.utf8Size⟩ text)), ⟨text, offset, c :: rest, true⟩) :=
        next_unreadable (by simpa using hblank) hnone
      cases n with
      | zero => rw [answer, hnext]; rfl
      | succ n => rw [answer, hnext]; exact answer_eq_none (next_failed rfl) n

/-- **A lexer yields the tokens of the text, then the error if there is one, and then nothing.** -/
theorem answer_ofText (text : String) (n : Nat) :
    (ofText text).answer n = ((Scan.ofText text).answers text)[n]? :=
  answer_eq text 0 text.toList n

end Lexer

end Timetable

/-
**Reading values.**

An argument is made of numbers on a dial, dates and intervals.  The checks on a value are made after
its lexemes have been taken, and a fault in it is placed at the first of them; only a number that is
too long is placed at itself.

Main definitions:

* `valueOf` — the value of a number as written, if it is not too long;
* `readInterval`, `readDialValue`, `readDate` — **reading an interval, a number on a dial and a
  date**;
* `dateOf` — the checks on a date.

Main results:

* `consumes_readInterval`, `consumes_readDialValue`, `consumes_readDate` — each of them takes
  something.
-/

import Timetable.Calendar.Date
import Timetable.Program.Reader.Single
import Timetable.Rule.Name

set_option relaxedAutoImplicit false
set_option autoImplicit false

namespace Timetable

variable (unread : Option (List Char))

/-- The value of the number at the first of the given lexemes, which must fit into 64 bits. -/
def valueOf (n : Numeral) (ls : List Lexeme) : Except Fault Int :=
  if -9223372036854775808 ≤ n.value ∧ n.value ≤ 9223372036854775807 then .ok n.value
  else faultAt (.outOfRange n) ls

/-- Reads an interval. -/
def readInterval (ls : List Lexeme) : Except Fault (Nat × List Lexeme) := do
  let (numeral, rest) ← readNumeral unread ls
  let n ← valueOf numeral ls
  if n ≤ 0 then faultAt (.notAnInterval n) ls
  else if 4294967295 < n then faultAt (.intervalTooLarge n) ls
  else return (n.toNat, rest)

/-- The sorts of lexeme that name a number of a dial. -/
def Dial.forms (d : Dial) : List Form :=
  if d = .daysOfWeek then [.integer, .word] else [.integer]

/-- Reads a number of a dial; a day of the week may be given by its name. -/
def readDialValue (d : Dial) (ls : List Lexeme) : Except Fault (Int × List Lexeme) :=
  match ls with
  | .integer numeral :: _ => do
    let rest ← afterFirst unread ls
    let n ← valueOf numeral ls
    if d.Takes n then return (n, rest) else faultAt (.notOnDial d n) ls
  | .word letters :: _ =>
    if d = .daysOfWeek then do
      let rest ← afterFirst unread ls
      match dayOfWeek? letters with
      | some n => return (n, rest)
      | none => faultAt (.unknownDay letters) ls
    else unexpectedAt d.forms ls
  | _ => unexpectedAt d.forms ls

/-- The date with these numbers, if a rule may name it; a date without a year may be any day of a
leap year.  `ls` is where the date was read. -/
def dateOf (year : Option Int) (month day : Int) (ls : List Lexeme) : Except Fault DateValue :=
  match year.filter fun y => y < firstRuleYear ∨ lastRuleYear < y with
  | some y => faultAt (.badYear y) ls
  | none =>
    let days := monthLength (year.getD yearlessLeapYear) month
    if month < 1 ∨ 12 < month then faultAt (.badMonth month) ls
    else if day < 1 ∨ days < day then faultAt (.badDay day days) ls
    else .ok ⟨year, month, day⟩

/-- Reads a date. -/
def readDate (ls : List Lexeme) : Except Fault (DateValue × List Lexeme) := do
  let (a, ls₁) ← readNumeral unread ls
  let ls₂ ← readSymbol unread .slash ls₁
  let (b, ls₃) ← readNumeral unread ls₂
  let (more, ls₄) ← readOptional unread .slash ls₃
  if more then do
    let (c, rest) ← readNumeral unread ls₄
    let year ← valueOf a ls
    let month ← valueOf b ls₂
    let day ← valueOf c ls₄
    return (← dateOf (some year) month day ls, rest)
  else do
    let month ← valueOf a ls
    let day ← valueOf b ls₂
    return (← dateOf none month day ls, ls₄)

/-! ### What a reader has taken -/

theorem consumes_readInterval : Consumes (readInterval unread) := by
  intro ls n rest h
  unfold readInterval at h
  simp only [bind_eq_ok, Prod.exists] at h
  obtain ⟨numeral, ls₁, h₁, _, -, h⟩ := h
  rw [readNumeral_eq_ok unread h₁]
  split at h
  · simp at h
  · split at h
    · simp at h
    · simp only [pure_eq_ok, Prod.mk.injEq] at h
      rw [← h.2]; simp

theorem consumes_readDialValue (d : Dial) : Consumes (readDialValue unread d) := by
  intro ls n rest h
  unfold readDialValue at h
  split at h
  · simp only [bind_eq_ok] at h
    obtain ⟨_, hn, _, -, h⟩ := h
    split at h
    · simp only [pure_eq_ok, Prod.mk.injEq] at h
      rw [← h.2, afterFirst_eq_ok unread hn]; simp
    · simp at h
  · split at h
    · simp only [bind_eq_ok] at h
      obtain ⟨_, hn, h⟩ := h
      split at h
      · simp only [pure_eq_ok, Prod.mk.injEq] at h
        rw [← h.2, afterFirst_eq_ok unread hn]; simp
      · simp at h
    · simp at h
  · simp at h

theorem consumes_readDate : Consumes (readDate unread) := by
  intro ls v rest h
  unfold readDate at h
  simp only [bind_eq_ok, Prod.exists] at h
  obtain ⟨a, ls₁, h₁, ls₂, h₂, b, ls₃, h₃, more, ls₄, h₄, h⟩ := h
  rw [readNumeral_eq_ok unread h₁, readSymbol_eq_ok unread h₂, readNumeral_eq_ok unread h₃,
    readOptional_eq_ok unread h₄]
  split at h
  · simp only [bind_eq_ok, pure_eq_ok, Prod.exists, Prod.mk.injEq] at h
    obtain ⟨c, ls₅, h₅, _, -, _, -, _, -, _, -, -, rfl⟩ := h
    rw [readNumeral_eq_ok unread h₅]
    split <;> simp only [List.length_cons] <;> omega
  · simp only [bind_eq_ok, pure_eq_ok, Prod.mk.injEq] at h
    obtain ⟨_, -, _, -, _, -, -, rfl⟩ := h
    split <;> simp only [List.length_cons] <;> omega

end Timetable

/-
**Taking single lexemes.**

Readers take lexemes from the front of a list, with one lexeme of look-ahead.  If a text cannot be
read to its end, the unreadable character is met as soon as the last lexeme before it has been
taken, and this fault comes before any other that is found later; so a reader knows the unread rest
of the text as a parameter and looks at it when it takes a lexeme.

Main definitions:

* `afterFirst` — what follows the first lexeme;
* `readSymbol`, `readOptional`, `readWord`, `readNumeral` — taking one lexeme of a given sort;
* `Consumes` — the reader takes at least one lexeme whenever it succeeds.

Main results:

* `readSymbol_eq_ok`, `readOptional_eq_ok`, `readWord_eq_ok`, `readNumeral_eq_ok` — a reader that
  succeeds has found its lexeme in front of the rest.
-/

import Timetable.Program.Fault

set_option relaxedAutoImplicit false
set_option autoImplicit false

namespace Timetable

variable (unread : Option (List Char))

/-! ### Single lexemes -/

/-- What follows the first lexeme.  Behind the last one the unreadable character is met, if there
is one. -/
def afterFirst : List Lexeme → Except Fault (List Lexeme)
  | [] => .ok []
  | _ :: l :: rest => .ok (l :: rest)
  | [_] =>
    match unread with
    | some text => faultAt (.unreadable text) []
    | none => .ok []

/-- Takes a symbol that has to come. -/
def readSymbol (s : Symbol) (ls : List Lexeme) : Except Fault (List Lexeme) :=
  if ls.head? = some (.symbol s) then afterFirst unread ls else unexpectedAt [.symbol s] ls

/-- Takes a symbol that may come, and tells whether it did. -/
def readOptional (s : Symbol) (ls : List Lexeme) : Except Fault (Bool × List Lexeme) :=
  if ls.head? = some (.symbol s) then return (true, ← afterFirst unread ls) else return (false, ls)

/-- Takes a word. -/
def readWord (ls : List Lexeme) : Except Fault (List Char × List Lexeme) :=
  match ls with
  | .word letters :: _ => return (letters, ← afterFirst unread ls)
  | _ => unexpectedAt [.word] ls

/-- Takes a number as written. -/
def readNumeral (ls : List Lexeme) : Except Fault (Numeral × List Lexeme) :=
  match ls with
  | .integer n :: _ => return (n, ← afterFirst unread ls)
  | _ => unexpectedAt [.integer] ls

/-! ### What a reader has taken -/

/-- The reader takes at least one lexeme whenever it succeeds. -/
def Consumes {α : Type} (read : Reader α) : Prop :=
  ∀ ⦃ls : List Lexeme⦄ ⦃a : α⦄ ⦃rest : List Lexeme⦄, read ls = .ok (a, rest) →
    rest.length < ls.length

theorem bind_eq_ok {ε α β : Type} {x : Except ε α} {f : α → Except ε β} {b : β} :
    (x >>= f) = .ok b ↔ ∃ a, x = .ok a ∧ f a = .ok b := by
  cases x with
  | error e => exact ⟨nofun, fun ⟨_, h, _⟩ => (nomatch h)⟩
  | ok a => exact ⟨fun h => ⟨a, rfl, h⟩, fun ⟨_, rfl, h⟩ => h⟩

theorem pure_eq_ok {ε α : Type} {a b : α} : (pure a : Except ε α) = .ok b ↔ a = b := by
  simp [pure, Except.pure]

@[simp] theorem faultAt_ne_ok {α : Type} {cause : Cause} {ls : List Lexeme} {a : α} :
    (faultAt cause ls : Except Fault α) = .ok a ↔ False := ⟨nofun, False.elim⟩

@[simp] theorem unexpectedAt_ne_ok {α : Type} {forms : List Form} {ls : List Lexeme} {a : α} :
    (unexpectedAt forms ls : Except Fault α) = .ok a ↔ False := ⟨nofun, False.elim⟩

/-- Taking a lexeme leaves what follows it. -/
theorem afterFirst_eq_ok {ls rest : List Lexeme} (h : afterFirst unread ls = .ok rest) :
    rest = ls.tail := by
  unfold afterFirst at h
  split at h
  · cases h; rfl
  · cases h; rfl
  · split at h
    · simp at h
    · cases h; rfl

theorem readSymbol_eq_ok {s : Symbol} {ls rest : List Lexeme}
    (h : readSymbol unread s ls = .ok rest) : ls = .symbol s :: rest := by
  unfold readSymbol at h
  split at h
  · obtain ⟨_, rfl⟩ := List.head?_eq_some_iff.1 ‹_›
    rw [afterFirst_eq_ok unread h, List.tail_cons]
  · simp at h

theorem readOptional_eq_ok {s : Symbol} {ls rest : List Lexeme} {taken : Bool}
    (h : readOptional unread s ls = .ok (taken, rest)) :
    ls = if taken then .symbol s :: rest else rest := by
  unfold readOptional at h
  split at h
  · simp only [bind_eq_ok, pure_eq_ok, Prod.mk.injEq] at h
    obtain ⟨_, hn, rfl, rfl⟩ := h
    obtain ⟨_, rfl⟩ := List.head?_eq_some_iff.1 ‹_›
    rw [afterFirst_eq_ok unread hn, List.tail_cons, if_pos rfl]
  · simp only [pure_eq_ok, Prod.mk.injEq] at h
    obtain ⟨rfl, rfl⟩ := h
    rfl

theorem readWord_eq_ok {ls rest : List Lexeme} {letters : List Char}
    (h : readWord unread ls = .ok (letters, rest)) : ls = .word letters :: rest := by
  unfold readWord at h
  split at h
  · simp only [bind_eq_ok, pure_eq_ok, Prod.mk.injEq] at h
    obtain ⟨_, hn, rfl, rfl⟩ := h
    rw [afterFirst_eq_ok unread hn, List.tail_cons]
  · simp at h

theorem readNumeral_eq_ok {ls rest : List Lexeme} {n : Numeral}
    (h : readNumeral unread ls = .ok (n, rest)) : ls = .integer n :: rest := by
  unfold readNumeral at h
  split at h
  · simp only [bind_eq_ok, pure_eq_ok, Prod.mk.injEq] at h
    obtain ⟨_, hn, rfl, rfl⟩ := h
    rw [afterFirst_eq_ok unread hn, List.tail_cons]
  · simp at h

theorem readOptional_length {s : Symbol} {ls rest : List Lexeme} {taken : Bool}
    (h : readOptional unread s ls = .ok (taken, rest)) : rest.length ≤ ls.length := by
  rw [readOptional_eq_ok unread h]
  split <;> simp

end Timetable

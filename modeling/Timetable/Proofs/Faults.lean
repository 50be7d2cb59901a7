/-
**Causes that reading avoids.**

A reader looks at lexemes one after the other and checks values in between, so what can be wrong at
one of its steps is known.  A property of causes that none of the steps has is not found by the
reader either.

Main definitions:

* `Avoids` — no cause with a property is found.

Main results:

* `Avoids.bind` — both steps avoid the causes, so going from one to the other does;
* `bind_eq_error_iff` — a fault is at one of the two steps;
* `avoids_afterFirst`, `avoids_readOptional` — taking a lexeme finds nothing but an unreadable
  character;
* `avoids_valueOf`, `avoids_dateOf` — checking values finds only what is wrong with values;
* `Program.read_cons_eq_error_iff` — a fault in a schedule is one in its list of items.
-/

import Timetable.Program.Reader

set_option relaxedAutoImplicit false
set_option autoImplicit false

namespace Timetable

/-- No cause with the property is found. -/
def Avoids {α : Type} (P : Cause → Prop) (x : Except Fault α) : Prop :=
  ∀ fault, x = .error fault → ¬P fault.cause

section Avoids

variable {α β : Type} {P : Cause → Prop} {unread : Option (List Char)}

theorem avoids_ok (a : α) : Avoids P (.ok a : Except Fault α) := nofun

theorem avoids_faultAt {cause : Cause} (h : ¬P cause) (ls : List Lexeme) :
    Avoids P (faultAt cause ls : Except Fault α) := by
  intro fault hfault
  cases hfault
  exact h

/-- **Going on from one step to the next.** -/
theorem Avoids.bind {x : Except Fault α} {f : α → Except Fault β} (hx : Avoids P x)
    (hf : ∀ a, Avoids P (f a)) : Avoids P (x >>= f) := by
  cases x with
  | error fault =>
      intro fault' h
      cases h
      exact hx fault rfl
  | ok a => exact hf a

/-- A value found at the end is built into the result. -/
theorem Avoids.pair {x : Except Fault α} (hx : Avoids P x) (f : α → β) :
    Avoids P (do return f (← x) : Except Fault β) :=
  hx.bind fun a => avoids_ok (f a)

/-- A fault is at the first step, or at the next behind what the first has found. -/
theorem bind_eq_error_iff {ε : Type} {x : Except ε α} {f : α → Except ε β} {e : ε} :
    (x >>= f) = .error e ↔ x = .error e ∨ ∃ a, x = .ok a ∧ f a = .error e := by
  cases x with
  | error e' => simp [bind, Except.bind]
  | ok a => simp [bind, Except.bind]

/-! ### The steps of reading -/

theorem avoids_afterFirst (h : ∀ text, ¬P (.unreadable text)) (ls : List Lexeme) :
    Avoids P (afterFirst unread ls) := by
  unfold afterFirst
  split
  · exact avoids_ok _
  · exact avoids_ok _
  · split
    · exact avoids_faultAt (h _) []
    · exact avoids_ok _

theorem avoids_readOptional (h : ∀ text, ¬P (.unreadable text)) (s : Symbol) (ls : List Lexeme) :
    Avoids P (readOptional unread s ls) := by
  unfold readOptional
  split
  · exact (avoids_afterFirst h ls).pair fun rest => (true, rest)
  · exact avoids_ok _

theorem avoids_valueOf (h : ∀ n, ¬P (.outOfRange n)) (n : Numeral) (ls : List Lexeme) :
    Avoids P (valueOf n ls) := by
  unfold valueOf
  split
  · exact avoids_ok _
  · exact avoids_faultAt (h n) ls

theorem avoids_dateOf (hyear : ∀ year, ¬P (.badYear year)) (hmonth : ∀ month, ¬P (.badMonth month))
    (hday : ∀ day days, ¬P (.badDay day days)) (year : Option Int) (month day : Int)
    (ls : List Lexeme) : Avoids P (dateOf year month day ls) := by
  unfold dateOf
  split
  · exact avoids_faultAt (hyear _) ls
  · dsimp only
    split
    · exact avoids_faultAt (hmonth month) ls
    · split
      · exact avoids_faultAt (hday day _) ls
      · exact avoids_ok _

end Avoids

/-! ### Schedules -/

/-- A fault in a schedule is one in its list of items. -/
theorem Program.read_cons_eq_error_iff {unread : Option (List Char)} {l : Lexeme} {ls : List Lexeme}
    {fault : Fault} :
    Program.read unread (l :: ls) = .error fault ↔
      readList unread (readItem unread) (consumes_readItem unread) List.isEmpty (l :: ls) =
        .error fault := by
  unfold Program.read
  rw [bind_eq_error_iff]
  refine or_iff_left ?_
  rintro ⟨p, -, h⟩
  cases h

end Timetable

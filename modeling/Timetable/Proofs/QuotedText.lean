/-
**What a fault quotes.**

The words for a fault may quote a piece of the text: the name of a kind or of a day that is not
known, a number that is too long, or all that is left of the text where it cannot be read.  The
first three are lexemes of the text, and the last is met only behind the last of them.

A reader is given lexemes and leaves some of them to the next one, so this is shown of each reader
with the lexemes of the whole text in view: what it leaves are lexemes of the text, and what its
faults quote is taken from there.

Main definitions:

* `Yields` — **a value with one property or a fault with another**;
* `Fault.QuotesFrom` — what the fault quotes is one of some lexemes, or the unread rest;
* `StaysWithin` — reading leaves lexemes of a text and its faults quote from there.

Main results:

* `Yields.bind` — a step that goes on with the value of another;
* `staysWithin_readDate`, `staysWithin_readArgument`, `staysWithin_readExpression` — the readers of
  the parts of a schedule;
* `Program.quotesFrom_of_read_eq_error` — **a fault in a schedule quotes from its text**.
-/

import Timetable.Program.Reader

set_option relaxedAutoImplicit false
set_option autoImplicit false

namespace Timetable

/-! ### Outcomes -/

/-- **A value with one property or a fault with another.** -/
def Yields {α : Type} (P : α → Prop) (Q : Fault → Prop) : Except Fault α → Prop
  | .ok a => P a
  | .error fault => Q fault

namespace Yields

variable {α β : Type} {P : α → Prop} {P' : β → Prop} {Q : Fault → Prop}

theorem of_error {x : Except Fault α} (h : Yields P Q x) {fault : Fault}
    (hx : x = .error fault) : Q fault := by
  rw [hx] at h
  exact h

theorem of_ok {x : Except Fault α} (h : Yields P Q x) {a : α} (hx : x = .ok a) : P a := by
  rw [hx] at h
  exact h

/-- **Going on from the value of a first step.** -/
theorem bind {x : Except Fault α} {f : α → Except Fault β} (hx : Yields P Q x)
    (hf : ∀ a, P a → Yields P' Q (f a)) : Yields P' Q (x >>= f) := by
  cases x with
  | error fault => exact hx
  | ok a => exact hf a hx

/-- Building a result from the value of a step. -/
theorem map {x : Except Fault α} (hx : Yields P Q x) {f : α → β} (hf : ∀ a, P a → P' (f a)) :
    Yields P' Q (do return f (← x) : Except Fault β) := by
  cases x with
  | error fault => exact hx
  | ok a => exact hf a hx

end Yields

/-! ### Quoting from a text -/

/-- What the fault quotes is one of the lexemes, or all that is left of the text where it cannot be
read, which is quoted at the end of the lexemes. -/
def Fault.QuotesFrom (unread : Option (List Char)) (ls : List Lexeme) : Fault → Prop
  | ⟨.unreadable text, left⟩ => unread = some text ∧ left = 0
  | ⟨.unknownKind name, _⟩ | ⟨.unknownDay name, _⟩ => .word name ∈ ls
  | ⟨.outOfRange n, _⟩ => .integer n ∈ ls
  | _ => True

/-- What reading leaves are lexemes of the text, and a fault in it quotes from the text. -/
abbrev StaysWithin (unread : Option (List Char)) (ls : List Lexeme) {α : Type}
    (x : Except Fault (α × List Lexeme)) : Prop :=
  Yields (fun p => p.2 ⊆ ls) (Fault.QuotesFrom unread ls) x

section Readers

variable {unread : Option (List Char)} {ls ms : List Lexeme}

/-! ### Single lexemes -/

theorem yields_afterFirst (h : ms ⊆ ls) :
    Yields (· ⊆ ls) (Fault.QuotesFrom unread ls) (afterFirst unread ms) := by
  unfold afterFirst
  split
  · exact List.nil_subset ls
  · exact List.subset_of_cons_subset h
  · split
    · exact ⟨rfl, rfl⟩
    · exact List.nil_subset ls

theorem yields_readSymbol (s : Symbol) (h : ms ⊆ ls) :
    Yields (· ⊆ ls) (Fault.QuotesFrom unread ls) (readSymbol unread s ms) := by
  unfold readSymbol
  split
  · exact yields_afterFirst h
  · trivial

theorem staysWithin_readOptional (s : Symbol) (h : ms ⊆ ls) :
    StaysWithin unread ls (readOptional unread s ms) := by
  unfold readOptional
  split
  · exact (yields_afterFirst h).map fun rest hrest => hrest
  · exact h

theorem yields_readWord (h : ms ⊆ ls) :
    Yields (fun p => .word p.1 ∈ ls ∧ p.2 ⊆ ls) (Fault.QuotesFrom unread ls)
      (readWord unread ms) := by
  unfold readWord
  split
  · exact (yields_afterFirst h).map fun rest hrest => ⟨h List.mem_cons_self, hrest⟩
  · trivial

theorem yields_readNumeral (h : ms ⊆ ls) :
    Yields (fun p => .integer p.1 ∈ ls ∧ p.2 ⊆ ls) (Fault.QuotesFrom unread ls)
      (readNumeral unread ms) := by
  unfold readNumeral
  split
  · exact (yields_afterFirst h).map fun rest hrest => ⟨h List.mem_cons_self, hrest⟩
  · trivial

/-! ### Values -/

theorem yields_valueOf {n : Numeral} (hn : .integer n ∈ ls) (ms : List Lexeme) :
    Yields (fun _ => True) (Fault.QuotesFrom unread ls) (valueOf n ms) := by
  unfold valueOf
  split
  · trivial
  · exact hn

theorem staysWithin_readInterval (h : ms ⊆ ls) :
    StaysWithin unread ls (readInterval unread ms) := by
  refine (yields_readNumeral h).bind ?_
  rintro ⟨n, rest⟩ ⟨hn, hrest⟩
  refine (yields_valueOf hn ms).bind fun v _ => ?_
  split
  · trivial
  · split
    · trivial
    · exact hrest

theorem staysWithin_readDialValue (d : Dial) (h : ms ⊆ ls) :
    StaysWithin unread ls (readDialValue unread d ms) := by
  unfold readDialValue
  split
  · refine (yields_afterFirst h).bind fun rest hrest => ?_
    refine (yields_valueOf (h List.mem_cons_self) _).bind fun n _ => ?_
    split
    · exact hrest
    · trivial
  · split
    · refine (yields_afterFirst h).bind fun rest hrest => ?_
      split
      · exact hrest
      · exact h List.mem_cons_self
    · trivial
  · trivial

/-- The checks on a date quote nothing. -/
theorem yields_dateOf (year : Option Int) (month day : Int) (ms : List Lexeme) :
    Yields (fun _ => True) (Fault.QuotesFrom unread ls) (dateOf year month day ms) := by
  unfold dateOf
  split
  · trivial
  · dsimp only
    split
    · trivial
    · split
      · trivial
      · trivial

theorem staysWithin_readDate (h : ms ⊆ ls) :
    StaysWithin unread ls (readDate unread ms) := by
  refine (yields_readNumeral h).bind ?_
  rintro ⟨a, ms₁⟩ ⟨ha, h₁⟩
  refine (yields_readSymbol .slash h₁).bind fun ms₂ h₂ => ?_
  refine (yields_readNumeral h₂).bind ?_
  rintro ⟨b, ms₃⟩ ⟨hb, h₃⟩
  refine (staysWithin_readOptional .slash h₃).bind ?_
  rintro ⟨more, ms₄⟩ h₄
  cases more with
  | true =>
      refine (yields_readNumeral h₄).bind ?_
      rintro ⟨c, rest⟩ ⟨hc, hrest⟩
      refine (yields_valueOf ha ms).bind fun year _ => ?_
      refine (yields_valueOf hb ms₂).bind fun month _ => ?_
      refine (yields_valueOf hc ms₄).bind fun day _ => ?_
      exact (yields_dateOf (some year) month day ms).map fun _ _ => hrest
  | false =>
      refine (yields_valueOf ha ms).bind fun month _ => ?_
      refine (yields_valueOf hb ms₂).bind fun day _ => ?_
      exact (yields_dateOf none month day ms).map fun _ _ => h₄

/-! ### Arguments -/

section Argument

variable {α : Type} [DecidableEq α] {readValue : Reader α} {endsFault? : α → α → Option Cause}

theorem staysWithin_readRangeMark (h : ms ⊆ ls) :
    StaysWithin unread ls (readRangeMark unread ms) := by
  unfold readRangeMark
  split
  · exact (yields_afterFirst h).map fun rest hrest => hrest
  · exact (yields_afterFirst h).map fun rest hrest => hrest
  · exact h

theorem staysWithin_readOptionalInterval (h : ms ⊆ ls) :
    StaysWithin unread ls (readOptionalInterval unread ms) := by
  refine (staysWithin_readOptional .interval h).bind ?_
  rintro ⟨marked, ms₁⟩ h₁
  cases marked with
  | true => exact (staysWithin_readInterval h₁).bind fun p hp => hp
  | false => exact h₁

variable
  (hvalue : ∀ ms, ms ⊆ ls → StaysWithin unread ls (readValue ms))
  (hends : ∀ a b cause left, endsFault? a b = some cause →
    Fault.QuotesFrom unread ls ⟨cause, left⟩)
include hvalue hends

theorem staysWithin_readExtent (h : ms ⊆ ls) :
    StaysWithin unread ls (readExtent unread readValue endsFault? ms) := by
  refine (hvalue ms h).bind ?_
  rintro ⟨start, ms₁⟩ h₁
  refine (staysWithin_readRangeMark h₁).bind ?_
  rintro ⟨mark, ms₂⟩ h₂
  cases mark with
  | none => exact h₂
  | some halfOpen =>
      refine (hvalue ms₂ h₂).bind ?_
      rintro ⟨stop, rest⟩ hrest
      dsimp only
      split
      · trivial
      · split
        · rename_i cause hcause
          exact hends start stop cause _ hcause
        · exact hrest

theorem staysWithin_readWildcardOrExtent (h : ms ⊆ ls) :
    StaysWithin unread ls (readWildcardOrExtent unread readValue endsFault? ms) := by
  refine (staysWithin_readOptional .wildcard h).bind ?_
  rintro ⟨wildcard, rest⟩ hrest
  cases wildcard with
  | true => exact hrest
  | false => exact staysWithin_readExtent hvalue hends hrest

theorem staysWithin_readArgument (h : ms ⊆ ls) :
    StaysWithin unread ls (readArgument unread readValue endsFault? ms) := by
  refine (staysWithin_readOptional .not h).bind ?_
  rintro ⟨excluded, ms₁⟩ h₁
  refine (staysWithin_readWildcardOrExtent hvalue hends h₁).bind ?_
  rintro ⟨extent, ms₂⟩ h₂
  refine (staysWithin_readOptionalInterval h₂).bind ?_
  rintro ⟨interval, rest⟩ hrest
  dsimp only
  split
  · trivial
  · exact hrest

end Argument

theorem staysWithin_readDateArgument (h : ms ⊆ ls) :
    StaysWithin unread ls (readDateArgument unread ms) := by
  refine staysWithin_readArgument (fun _ h => staysWithin_readDate h) ?_ h
  intro a b cause left hcause
  unfold dateEndsFault? at hcause
  split at hcause
  · cases hcause
    trivial
  · split at hcause
    · cases hcause
      trivial
    · cases hcause

theorem staysWithin_readDialArgument (d : Dial) (h : ms ⊆ ls) :
    StaysWithin unread ls (readDialArgument unread d ms) :=
  staysWithin_readArgument (fun _ h => staysWithin_readDialValue d h) (fun _ _ _ _ => nofun) h

/-! ### Expressions and items -/

/-- **A list quotes what its things quote.** -/
theorem staysWithin_readList {α : Type} {read : Reader α} {consumes : Consumes read}
    {stops : List Lexeme → Bool}
    (hread : ∀ ms, ms ⊆ ls → StaysWithin unread ls (read ms))
    (h : ms ⊆ ls) :
    StaysWithin unread ls (readList unread read consumes stops ms) := by
  fun_induction readList unread read consumes stops ms with
  | case1 ms fault hthing => exact (hread ms h).of_error hthing
  | case2 ms a ms₁ hthing fault hcomma =>
      have h₁ : ms₁ ⊆ ls := (hread ms h).of_ok hthing
      exact (staysWithin_readOptional .comma h₁).of_error hcomma
  | case3 ms a ms₁ hthing taken ms₂ hcomma hstops =>
      have h₁ : ms₁ ⊆ ls := (hread ms h).of_ok hthing
      exact (staysWithin_readOptional .comma h₁).of_ok hcomma
  | case4 ms a ms₁ hthing taken ms₂ hcomma hstops fault hrest ih =>
      have h₁ : ms₁ ⊆ ls := (hread ms h).of_ok hthing
      have h₂ : ms₂ ⊆ ls := (staysWithin_readOptional .comma h₁).of_ok hcomma
      exact (ih h₂).of_error hrest
  | case5 ms a ms₁ hthing taken ms₂ hcomma hstops as rest hrest ih =>
      have h₁ : ms₁ ⊆ ls := (hread ms h).of_ok hthing
      have h₂ : ms₂ ⊆ ls := (staysWithin_readOptional .comma h₁).of_ok hcomma
      have hleft : rest ⊆ ls := (ih h₂).of_ok hrest
      exact hleft

theorem staysWithin_readArguments (kind : Kind) (h : ms ⊆ ls) :
    StaysWithin unread ls (readArguments unread kind ms) := by
  refine (yields_readSymbol .openParen h).bind fun ms₁ h₁ => ?_
  cases kind with
  | dates =>
      refine (staysWithin_readList (fun _ h => staysWithin_readDateArgument h) h₁).bind
        fun p hp => ?_
      exact (yields_readSymbol .closeParen hp).map fun rest hrest => hrest
  | dial d =>
      refine (staysWithin_readList (fun _ h => staysWithin_readDialArgument d h) h₁).bind
        fun p hp => ?_
      exact (yields_readSymbol .closeParen hp).map fun rest hrest => hrest

theorem staysWithin_readExpression (h : ms ⊆ ls) :
    StaysWithin unread ls (readExpression unread ms) := by
  refine (yields_readWord h).bind ?_
  rintro ⟨name, ms₁⟩ ⟨hname, h₁⟩
  dsimp only
  split
  · exact hname
  · exact staysWithin_readArguments _ h₁

theorem staysWithin_readBraced (h : ms ⊆ ls) :
    StaysWithin unread ls (readBraced unread ms) := by
  refine (yields_readSymbol .openBrace h).bind fun ms₁ h₁ => ?_
  split
  · trivial
  · refine (staysWithin_readList (fun _ h => staysWithin_readExpression h) h₁).bind
      fun p hp => ?_
    exact (yields_readSymbol .closeBrace hp).map fun rest hrest => hrest

theorem staysWithin_readItem (h : ms ⊆ ls) :
    StaysWithin unread ls (readItem unread ms) := by
  unfold readItem
  split
  · exact (staysWithin_readBraced h).bind fun p hp => hp
  · exact (staysWithin_readExpression h).bind fun p hp => hp
  · trivial

/-! ### Schedules -/

/-- **A fault in a schedule quotes from its text.** -/
theorem Program.quotesFrom_of_read_eq_error {fault : Fault}
    (h : Program.read unread ls = .error fault) : fault.QuotesFrom unread ls := by
  have hyields : Yields (fun _ => True) (Fault.QuotesFrom unread ls) (Program.read unread ls) := by
    unfold Program.read
    split
    · exact ⟨rfl, rfl⟩
    · trivial
    · refine (staysWithin_readList (fun _ h => staysWithin_readItem h) (List.Subset.refl _)).bind ?_
      intro p hp
      trivial
  exact hyields.of_error h

end Readers

end Timetable

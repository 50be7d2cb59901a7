/-
**Texts put together and taken apart.**

A text is read as lexemes if it consists of their spellings, in order, with blanks before, between
and behind them, and no spelling goes on in what follows it.  The last condition is the only one
that looks across the end of a text, so a text whose last lexeme nothing can go on with may be
followed by any other, and the lexemes of the two come one behind the other.  The other way round,
wherever the lexemes of a text are parted the text can be parted as well.

Main definitions:

* `Renders` — **characters that consist of the spellings of lexemes and blanks**;
* `ReadsAs` — a text that can be read to its end, as given lexemes;
* `IsClosed` — lexemes of which nothing goes on with the last.

Main results:

* `renders_iff` — lexemes are read from the characters that consist of them;
* `Renders.append`, `Renders.split` — **texts are put together and taken apart like their lexemes**.
-/

import Timetable.Proofs.TokenPlaces

set_option relaxedAutoImplicit false
set_option autoImplicit false

namespace Timetable

/-! ### What goes on with a lexeme -/

namespace Lexeme.EndsBefore

variable {l : Lexeme} {cs ds : List Char}

/-- Only the first character of what follows can go on with a lexeme. -/
theorem congr (h : l.EndsBefore cs) (hhead : cs.head? = ds.head?) : l.EndsBefore ds := by
  have hends : endsWord cs = endsWord ds := by
    cases cs <;> cases ds <;> simp_all [endsWord]
  cases l with
  | symbol s => exact fun hs => hhead ▸ h hs
  | word letters => exact hends.symm.trans h
  | integer n => exact hends.symm.trans h

theorem append (h : l.EndsBefore cs) (hne : cs ≠ []) (ds : List Char) :
    l.EndsBefore (cs ++ ds) := by
  obtain ⟨c, cs, rfl⟩ := List.exists_cons_of_ne_nil hne
  exact h.congr rfl

theorem nil (l : Lexeme) : l.EndsBefore [] := by
  cases l with
  | symbol s => exact fun _ => nofun
  | word _ | integer _ => rfl

theorem of_append (h : l.EndsBefore (cs ++ ds)) : l.EndsBefore cs := by
  cases cs with
  | nil => exact nil l
  | cons c cs => exact h.congr rfl

end Lexeme.EndsBefore

/-- Nothing goes on with the last of the lexemes. -/
def IsClosed (ls : List Lexeme) : Prop :=
  ∀ l ∈ ls.getLast?, ∀ rest : List Char, l.EndsBefore rest

theorem isClosed_nil : IsClosed [] := nofun

/-- Nothing goes on with a symbol but with the inclusive range mark. -/
theorem isClosed_symbol (ls : List Lexeme) {s : Symbol} (h : s ≠ .rangeInclusive) :
    IsClosed (ls ++ [.symbol s]) := by
  intro l hl rest
  rw [List.getLast?_concat] at hl
  cases hl
  exact fun hs => absurd hs h

theorem IsClosed.append {ls ms : List Lexeme} (hls : IsClosed ls) (hms : IsClosed ms) :
    IsClosed (ls ++ ms) := by
  intro l hl
  rw [List.getLast?_append] at hl
  rcases Option.or_eq_some_iff.1 hl with hl | ⟨-, hl⟩
  · exact hms l hl
  · exact hls l hl

theorem IsClosed.tail {l : Lexeme} {ls : List Lexeme} (h : IsClosed (l :: ls)) : IsClosed ls := by
  intro m hm
  refine h m ?_
  rw [List.getLast?_cons, Option.mem_def.1 hm]
  rfl

/-! ### Texts of lexemes -/

/-- **The characters consist of the spellings of the lexemes, with blanks before, between and behind
them**, and no spelling goes on in what follows. -/
inductive Renders : List Lexeme → List Char → Prop
  | nil : Renders [] []
  | blank {ls : List Lexeme} {c : Char} {cs : List Char} (hc : isBlank c = true)
      (h : Renders ls cs) : Renders ls (c :: cs)
  | lexeme {l : Lexeme} {ls : List Lexeme} {rest : List Char} (hl : l.StandsBefore rest)
      (h : Renders ls rest) : Renders (l :: ls) (l.spelling ++ rest)

/-- **Lexemes are read from the characters that consist of them.** -/
theorem renders_iff {ls : List Lexeme} {cs : List Char} (offset : Nat) :
    Renders ls cs ↔ (Scan.ofRest offset cs).lexemes = ls ∧
      (Scan.ofRest offset cs).ending.unread? = none := by
  constructor
  · intro h
    induction h generalizing offset with
    | nil =>
        rw [Scan.ofRest_nil]
        exact ⟨rfl, rfl⟩
    | blank hc _ ih =>
        rw [Scan.ofRest_blank hc]
        exact ih (offset + 1)
    | lexeme hl _ ih =>
        obtain ⟨next, token, htoken, hread⟩ := Scan.ofRest_spelling hl.1 hl.2 offset
        obtain ⟨hlexemes, hunread⟩ := ih next
        rw [hread]
        exact ⟨congrArg₂ List.cons htoken hlexemes, hunread⟩
  · rintro ⟨rfl, hunread⟩
    fun_induction Scan.ofRest offset cs with
    | case1 offset => exact Renders.nil
    | case2 offset c rest hblank ih => exact Renders.blank hblank (ih hunread)
    | case3 offset c rest hblank l after hlexeme stop scan ih =>
        obtain ⟨htext, hstands⟩ := lexeme?_eq_some_iff.1 hlexeme
        rw [htext]
        exact Renders.lexeme hstands (ih hunread)
    | case4 offset c rest hblank hnone => cases hunread

namespace Renders

variable {ls ms : List Lexeme} {cs ds : List Char}

theorem eq_nil (h : Renders ls []) : ls = [] := by
  obtain ⟨hlexemes, -⟩ := (renders_iff 0).1 h
  rw [← hlexemes, Scan.ofRest_nil]
  rfl

/-- **Texts are put together like their lexemes**, if nothing goes on with the last of the first. -/
theorem append (h : Renders ls cs) (hclosed : IsClosed ls) (h' : Renders ms ds) :
    Renders (ls ++ ms) (cs ++ ds) := by
  induction h with
  | nil => exact h'
  | blank hc _ ih => exact Renders.blank hc (ih hclosed)
  | @lexeme l ls rest hl hrest ih =>
      have hends : l.EndsBefore (rest ++ ds) := by
        by_cases hne : rest = []
        · -- the lexeme is the last one
          subst hne
          rw [hrest.eq_nil] at hclosed
          exact hclosed l rfl ds
        · exact hl.2.append hne ds
      rw [List.cons_append, List.append_assoc]
      exact Renders.lexeme ⟨hl.1, hends⟩ (ih hclosed.tail)

/-- **Texts are taken apart like their lexemes.** -/
theorem split (h : Renders (ls ++ ms) cs) :
    ∃ front back, cs = front ++ back ∧ Renders ls front ∧ Renders ms back := by
  generalize hns : ls ++ ms = ns at h
  induction h generalizing ls with
  | nil =>
      obtain ⟨rfl, rfl⟩ := List.append_eq_nil_iff.1 hns
      exact ⟨[], [], rfl, Renders.nil, Renders.nil⟩
  | @blank ns c cs hc h ih =>
      obtain ⟨front, back, rfl, hfront, hback⟩ := ih hns
      exact ⟨c :: front, back, rfl, Renders.blank hc hfront, hback⟩
  | @lexeme l ns rest hl h ih =>
      cases ls with
      | nil =>
          rw [List.nil_append] at hns
          rw [hns]
          exact ⟨[], l.spelling ++ rest, rfl, Renders.nil, Renders.lexeme hl h⟩
      | cons m ls =>
          obtain ⟨rfl, htail⟩ := List.cons_eq_cons.1 hns
          obtain ⟨front, back, rfl, hfront, hback⟩ := ih htail
          refine ⟨m.spelling ++ front, back, (List.append_assoc ..).symm, ?_, hback⟩
          exact Renders.lexeme ⟨hl.1, hl.2.of_append⟩ hfront

end Renders

/-- The text can be read to its end, as these lexemes. -/
def ReadsAs (text : String) (ls : List Lexeme) : Prop :=
  (Scan.ofText text).lexemes = ls ∧ (Scan.ofText text).ending.unread? = none

theorem readsAs_iff {text : String} {ls : List Lexeme} :
    ReadsAs text ls ↔ Renders ls text.toList := (renders_iff 0).symm

theorem readsAs_empty : ReadsAs "" [] := readsAs_iff.2 Renders.nil

theorem ReadsAs.append {s t : String} {ls ms : List Lexeme} (hs : ReadsAs s ls)
    (hclosed : IsClosed ls) (ht : ReadsAs t ms) : ReadsAs (s ++ t) (ls ++ ms) := by
  rw [readsAs_iff, String.toList_append]
  exact (readsAs_iff.1 hs).append hclosed (readsAs_iff.1 ht)

theorem ReadsAs.split {text : String} {ls ms : List Lexeme} (h : ReadsAs text (ls ++ ms)) :
    ∃ s t, text = s ++ t ∧ ReadsAs s ls ∧ ReadsAs t ms := by
  obtain ⟨front, back, htext, hfront, hback⟩ := (readsAs_iff.1 h).split
  refine ⟨String.ofList front, String.ofList back, ?_, ?_, ?_⟩
  · rw [← String.ofList_append, ← htext, String.ofList_toList]
  · rwa [readsAs_iff, String.toList_ofList]
  · rwa [readsAs_iff, String.toList_ofList]

end Timetable

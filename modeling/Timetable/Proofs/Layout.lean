/-
**Layout and letter case do not change what a text means.**

What a text means is read from its lexemes, and a fault is placed by the number of lexemes from it to
the end.  Two texts with equally many tokens of the same sorts, which are spelled alike up to case,
have lexemes that are alike: a symbol is known by its sort, and no sign or digit has a case.  So they
are read to the same schedule, or to faults that are alike, and a fault is then at the token with the
same number in both texts, or at the end of both.

A token lies wherever its text has it, but the end of a text is at its last byte: every blank and
every character of a lexeme is one byte long.

Main definitions:

* `Token.SameUpToCase`, `SameTokens` — tokens of one sort and spelling up to case, and texts that
  consist of such tokens;
* `SameError` — errors for one cause at the same token of two texts or at the ends of both.

Main results:

* `Lexeme.alike_of_spelling` — lexemes of one sort that are spelled alike up to case are alike;
* `Scan.ending_eq_finished` — a text that can be read to its end ends at its last byte;
* `groupsOf_of_sameTokens` — **texts with the same tokens up to case mean the same groups, or are
  wrong in the same way at the same place**.
-/

import Timetable.Proofs.LetterCase
import Timetable.Proofs.TokenPlaces
import Timetable.Schedule

set_option relaxedAutoImplicit false
set_option autoImplicit false

namespace Timetable

/-! ### Spelling up to case -/

/-- A character outside the letters A to Z has no case. -/
theorem toLower_eq_self_of_isDigit {c : Char} (h : c.isDigit = true) : c.toLower = c := by
  refine dif_neg fun hupper => ?_
  have hdigit : c.val.toNat ≤ 57 := (Char.isDigit_iff_toNat.1 h).2
  have hletter : 65 ≤ c.val.toNat := UInt32.le_iff_toNat_le.1 hupper.1
  omega

/-- A number has no case. -/
theorem foldCase_numeral {n : Numeral} (h : (Lexeme.integer n).IsSpellable) :
    foldCase n.spelling = n.spelling := by
  have hdigits : n.digits.map Char.toLower = n.digits :=
    (List.map_congr_left fun c hc => toLower_eq_self_of_isDigit (h.2 c hc)).trans
      (List.map_id n.digits)
  unfold foldCase Numeral.spelling
  rw [List.map_append, hdigits]
  cases n.negative <;> rfl

/-- A number is known by its spelling, as no digit is a sign. -/
theorem Numeral.eq_of_spelling {n n' : Numeral} (hn : (Lexeme.integer n).IsSpellable)
    (hn' : (Lexeme.integer n').IsSpellable) (h : n.spelling = n'.spelling) : n = n' := by
  have hread : numeral? (n.spelling ++ []) = some (.integer n, []) := numeral?_spelling hn rfl
  rw [h, numeral?_spelling hn' rfl] at hread
  cases hread
  rfl

/-- **Lexemes of one sort that are spelled alike up to case are alike.** -/
theorem Lexeme.alike_of_spelling {l l' : Lexeme} (hl : l.IsSpellable) (hl' : l'.IsSpellable)
    (hform : l.form = l'.form) (hspelling : foldCase l.spelling = foldCase l'.spelling) :
    l.Alike l' := by
  cases l with
  | symbol s =>
      cases l' with
      | symbol s' =>
          cases hform
          exact Alike.symbol s
      | word _ | integer _ => cases hform
  | word letters =>
      cases l' with
      | word letters' => exact Alike.word hspelling
      | symbol _ | integer _ => cases hform
  | integer n =>
      cases l' with
      | integer n' =>
          have hnumeral : foldCase n.spelling = foldCase n'.spelling := hspelling
          rw [foldCase_numeral hl, foldCase_numeral hl'] at hnumeral
          rw [Numeral.eq_of_spelling hl hl' hnumeral]
          exact Alike.integer n'
      | symbol _ | word _ => cases hform

/-! ### The end of a text -/

/-- **A text that can be read to its end ends at its last byte.** -/
theorem Scan.ending_eq_finished {offset : Nat} {cs : List Char}
    (h : (ofRest offset cs).ending.unread? = none) :
    (ofRest offset cs).ending = .finished (offset + (String.ofList cs).utf8ByteSize) := by
  rcases ending_cases offset cs with hending | ⟨before, c, rest, -, hending, -⟩
  · exact hending
  · rw [hending] at h
    cases h

theorem Scan.span_ending_ofText {text : String} (h : (ofText text).ending.unread? = none) :
    (ofText text).ending.span = ⟨text.utf8ByteSize, text.utf8ByteSize⟩ := by
  have hending := ending_eq_finished h
  rw [String.ofList_toList, Nat.zero_add] at hending
  unfold ofText
  rw [hending]
  rfl

/-! ### Texts with the same tokens -/

/-- The tokens are of one sort and spelled alike up to case, wherever they stand. -/
def Token.SameUpToCase (t t' : Token) : Prop :=
  t.lexeme.form = t'.lexeme.form ∧ foldCase t.lexeme.spelling = foldCase t'.lexeme.spelling

instance (t t' : Token) : Decidable (t.SameUpToCase t') :=
  inferInstanceAs (Decidable (_ ∧ _))

/-- Both texts can be read to their ends, as tokens that are pairwise the same up to case. -/
structure SameTokens (text text' : String) : Prop where
  finished : (Scan.ofText text).ending.unread? = none
  finished' : (Scan.ofText text').ending.unread? = none
  tokens : List.Forall₂ Token.SameUpToCase (Scan.ofText text).tokens (Scan.ofText text').tokens

/-- The errors are of the same sort.  A text that is malformed is so for one cause, up to the case
of a name in it, at the same token of both texts or at the ends of both. -/
inductive SameError (text text' : String) : ScheduleError → ScheduleError → Prop
  | empty (message : String) : SameError text text' (.empty message) (.empty message)
  | atToken {cause cause' : Cause} (hcause : cause.folded = cause'.folded) (i : Nat) {t t' : Token}
      (ht : (Scan.ofText text).tokens[i]? = some t)
      (ht' : (Scan.ofText text').tokens[i]? = some t') :
      SameError text text' (.malformed (cause.message t.span.start) t.span text)
        (.malformed (cause'.message t'.span.start) t'.span text')
  | atEnd {cause cause' : Cause} (hcause : cause.folded = cause'.folded) :
      SameError text text'
        (.malformed (cause.message text.utf8ByteSize) ⟨text.utf8ByteSize, text.utf8ByteSize⟩ text)
        (.malformed (cause'.message text'.utf8ByteSize)
          ⟨text'.utf8ByteSize, text'.utf8ByteSize⟩ text')

namespace SameTokens

variable {text text' : String}

/-- The lexemes of such texts are alike. -/
theorem alikeLexemes (h : SameTokens text text') :
    AlikeLexemes (Scan.ofText text).lexemes (Scan.ofText text').lexemes := by
  unfold Scan.lexemes
  rw [AlikeLexemes, List.forall₂_map_left_iff, List.forall₂_map_right_iff, List.forall₂_iff_get]
  obtain ⟨hlength, hget⟩ := List.forall₂_iff_get.1 h.tokens
  refine ⟨hlength, fun i hi hi' => ?_⟩
  obtain ⟨hform, hspelling⟩ := hget i hi hi'
  exact Lexeme.alike_of_spelling (Scan.isSpellable_of_mem (List.get_mem _ _))
    (Scan.isSpellable_of_mem (List.get_mem _ _)) hform hspelling

/-- A number of tokens from the end leads to the ends of both texts or to tokens with one number. -/
theorem spanFromEnd_cases (h : SameTokens text text') (left : Nat) :
    ((Scan.ofText text).spanFromEnd left = ⟨text.utf8ByteSize, text.utf8ByteSize⟩ ∧
      (Scan.ofText text').spanFromEnd left = ⟨text'.utf8ByteSize, text'.utf8ByteSize⟩) ∨
      ∃ (i : Nat) (t t' : Token), (Scan.ofText text).tokens[i]? = some t ∧
        (Scan.ofText text').tokens[i]? = some t' ∧
          (Scan.ofText text).spanFromEnd left = t.span ∧
            (Scan.ofText text').spanFromEnd left = t'.span := by
  have hlength := h.tokens.length_eq
  rw [← Scan.span_ending_ofText h.finished, ← Scan.span_ending_ofText h.finished']
  unfold Scan.spanFromEnd
  by_cases hleft : left = 0
  · rw [if_pos hleft, if_pos hleft]
    exact Or.inl ⟨rfl, rfl⟩
  · rw [if_neg hleft, if_neg hleft, hlength]
    generalize (Scan.ofText text').tokens.length - left = i
    cases ht : (Scan.ofText text).tokens[i]? with
    | none =>
        have ht' : (Scan.ofText text').tokens[i]? = none := by
          rw [List.getElem?_eq_none_iff] at ht ⊢
          omega
        rw [ht']
        exact Or.inl ⟨rfl, rfl⟩
    | some t =>
        obtain ⟨hi, -⟩ := List.getElem?_eq_some_iff.1 ht
        have ht' := List.getElem?_eq_getElem (hlength ▸ hi)
        refine Or.inr ⟨i, t, _, ht, ht', rfl, ?_⟩
        rw [ht']
        rfl

/-- Faults that are alike are the same error in both texts. -/
theorem sameError (h : SameTokens text text') {fault fault' : Fault} (hfault : fault.Alike fault') :
    SameError text text' (ScheduleError.ofFault text (Scan.ofText text) fault)
      (ScheduleError.ofFault text' (Scan.ofText text') fault') := by
  obtain ⟨cause, left⟩ := fault
  obtain ⟨cause', left'⟩ := fault'
  obtain ⟨hcause, rfl⟩ : cause.folded = cause'.folded ∧ left = left' := hfault
  have hnone : cause = .noExpression ↔ cause' = .noExpression := by
    rw [← Cause.folded_eq_noExpression_iff, hcause, Cause.folded_eq_noExpression_iff]
  unfold ScheduleError.ofFault
  by_cases hcause' : cause' = .noExpression
  · rw [if_pos (hnone.2 hcause'), if_pos hcause', hnone.2 hcause', hcause']
    exact SameError.empty _
  · rw [if_neg (mt hnone.1 hcause'), if_neg hcause']
    dsimp only
    obtain ⟨hspan, hspan'⟩ | ⟨i, t, t', ht, ht', hspan, hspan'⟩ := h.spanFromEnd_cases left
    · rw [hspan, hspan']
      exact SameError.atEnd hcause
    · rw [hspan, hspan']
      exact SameError.atToken hcause i ht ht'

end SameTokens

/-- **Texts with the same tokens up to case mean the same groups, or are wrong in the same way at the
same place.** -/
theorem groupsOf_of_sameTokens {text text' : String} (h : SameTokens text text') :
    (∃ gs, groupsOf text = .ok gs ∧ groupsOf text' = .ok gs) ∨
      ∃ e e', groupsOf text = .error e ∧ groupsOf text' = .error e' ∧
        SameError text text' e e' := by
  have hagree : Agree Eq (Program.read none (Scan.ofText text).lexemes)
      (Program.read none (Scan.ofText text').lexemes) := Program.agree_read h.alikeLexemes
  unfold groupsOf
  dsimp only
  rw [h.finished, h.finished']
  cases hread : Program.read none (Scan.ofText text).lexemes with
  | ok p =>
      cases hread' : Program.read none (Scan.ofText text').lexemes with
      | ok p' =>
          rw [hread, hread'] at hagree
          obtain rfl : p = p' := hagree
          exact Or.inl ⟨p.groups, rfl, rfl⟩
      | error fault' =>
          rw [hread, hread'] at hagree
          exact hagree.elim
  | error fault =>
      cases hread' : Program.read none (Scan.ofText text').lexemes with
      | ok p' =>
          rw [hread, hread'] at hagree
          exact hagree.elim
      | error fault' =>
          rw [hread, hread'] at hagree
          exact Or.inr ⟨_, _, rfl, rfl, h.sameError hagree⟩

/-- A day is left out of a range, whether its name is written with blanks and capitals or without
them, and where no day has the name both texts are wrong at it. -/
theorem groupsOf_of_sameTokens_unknownDay :
    (let text := "Days( Mon ..< FRI ),\n\thours(*%2) dow(!Tue)"
     let text' := "days(mon..<fri),HOURS(*%2)DOW(!tue)"
     let gs : List Group :=
       [{ daysOfWeek := ⟨[Range.of 2 6 true 1], [Range.single 3]⟩
          hours.included := [Range.of 0 23 false 2]
          minutes.included := [Range.single 0]
          seconds.included := [Range.single 0] }]
     SameTokens text text' ∧ groupsOf text = .ok gs ∧ groupsOf text' = .ok gs) ∧
    (let text := "Days( Mon ..< FRI ),\n\thours(*%2) dow(!FUN)"
     let text' := "days(mon..<fri),HOURS(*%2)DOW(!fun)"
     let e : ScheduleError :=
       .malformed "unknown integer or day-of-week literal 'FUN'" ⟨38, 41⟩ text
     let e' : ScheduleError :=
       .malformed "unknown integer or day-of-week literal 'fun'" ⟨31, 34⟩ text'
     SameTokens text text' ∧ groupsOf text = .error e ∧ groupsOf text' = .error e' ∧
       SameError text text' e e') := by
  constructor
  · intro text text' gs
    have htokens : SameTokens text text' :=
      ⟨by decide +kernel, by decide +kernel, by decide +kernel⟩
    have hgs : groupsOf text = .ok gs := by decide +kernel
    refine ⟨htokens, hgs, ?_⟩
    obtain ⟨gs', hgs', hsame⟩ | ⟨e, e', he, -⟩ := groupsOf_of_sameTokens htokens
    · rw [hgs] at hgs'
      cases hgs'
      exact hsame
    · rw [hgs] at he
      cases he
  · intro text text' e e'
    have htokens : SameTokens text text' :=
      ⟨by decide +kernel, by decide +kernel, by decide +kernel⟩
    have he : groupsOf text = .error e := by decide +kernel
    have he' : groupsOf text' = .error e' := by decide +kernel
    refine ⟨htokens, he, he', ?_⟩
    obtain ⟨gs, hgs, -⟩ | ⟨f, f', hf, hf', hsame⟩ := groupsOf_of_sameTokens htokens
    · rw [he] at hgs
      cases hgs
    · rw [he] at hf
      rw [he'] at hf'
      cases hf
      cases hf'
      exact hsame

end Timetable

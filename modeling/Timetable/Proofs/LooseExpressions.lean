/-
**Loose expressions are one group, wherever they stand.**

The loose expressions of a schedule may stand anywhere between its groups in braces, and all of them
are one group at the place of the first.  So the schedule can be written with braces around them
there: the texts of the loose expressions are moved between the braces, in the order they had, and
the groups in braces stay as they are, in their order, in front and behind.  The text that results
means the same groups, however commas and blanks are put between its parts.

Main definitions:

* `IsGap`, `LaidOut` — texts one behind the other, with gaps between them;
* `Piece` — a part of a text that is an item;
* `Regroups` — **a text with all loose expressions of another in one pair of braces**.

Main results:

* `Program.gathered_braced` — braces around the loose expressions leave the groups the same;
* `LaidOut.exists_readsAs` — pieces laid out are read as a list of their items;
* `DerivesProgram.exists_pieces` — and every schedule consists of such pieces;
* `groupsOf_of_regroups` — **the text that results means the same groups**.
-/

import Timetable.Proofs.Language
import Timetable.Proofs.TextParts

set_option relaxedAutoImplicit false
set_option autoImplicit false

namespace Timetable

/-! ### Items in another order -/

/-- The item is a loose expression. -/
def Item.isLoose (i : Item) : Bool := i.loose?.isSome

namespace Program

/-- Groups in braces are not gathered with anything. -/
theorem gathered_filter_braced (p : Program) :
    gathered (p.filter fun i => !i.isLoose) = p.filterMap Item.braced? := by
  induction p with
  | nil => rfl
  | cons i p ih =>
      cases i with
      | braced es => exact congrArg (es :: ·) ih
      | loose e => exact ih

/-- **Putting braces around the loose expressions leaves the groups the same.** -/
theorem gathered_braced {before : Program} (hbefore : ∀ i ∈ before, i.isLoose = false)
    (e : Expression) (rest : Program) :
    gathered (before ++ .braced (e :: rest.filterMap Item.loose?) ::
        rest.filter fun i => !i.isLoose) =
      gathered (before ++ .loose e :: rest) := by
  induction before with
  | nil =>
      rw [List.nil_append, List.nil_append, gathered, gathered, gathered_filter_braced]
  | cons i before ih =>
      obtain ⟨hi, hmore⟩ := List.forall_mem_cons.1 hbefore
      cases i with
      | braced es => exact congrArg (es :: ·) (ih hmore)
      | loose e' => cases hi

end Program

/-! ### Texts one behind the other -/

/-- Blanks, with one comma among them at most. -/
def IsGap (gap : String) : Prop := ∃ sep, ReadsAs gap sep ∧ OptionalComma sep

/-- **Texts one behind the other**, each with a gap behind it. -/
inductive LaidOut : List String → String → Prop
  | nil : LaidOut [] ""
  | cons {s gap rest : String} {ss : List String} (hgap : IsGap gap) (h : LaidOut ss rest) :
      LaidOut (s :: ss) (s ++ gap ++ rest)

theorem isGap_empty : IsGap "" := ⟨[], readsAs_empty, OptionalComma.absent⟩

/-- Any texts can be laid out. -/
theorem exists_laidOut (ss : List String) : ∃ t, LaidOut ss t := by
  induction ss with
  | nil => exact ⟨"", LaidOut.nil⟩
  | cons s ss ih =>
      obtain ⟨t, ht⟩ := ih
      exact ⟨s ++ "" ++ t, LaidOut.cons isGap_empty ht⟩

theorem OptionalComma.isClosed {sep : List Lexeme} (h : OptionalComma sep) : IsClosed sep := by
  cases h with
  | absent => exact isClosed_nil
  | comma => exact isClosed_symbol [] nofun

/-- **Things laid out are read as a list.** -/
theorem LaidOut.exists_readsAs {α : Type} {thing : List Lexeme → α → Prop}
    (hclosed : ∀ ls a, thing ls a → IsClosed ls) {ss : List String} {as : List α} {t : String}
    (h : LaidOut ss t) (hss : List.Forall₂ (fun s a => ∃ ls, ReadsAs s ls ∧ thing ls a) ss as)
    (hne : ss ≠ []) : ∃ ls, ReadsAs t ls ∧ IsClosed ls ∧ DerivesList thing ls as := by
  induction h generalizing as with
  | nil => exact absurd rfl hne
  | @cons s gap rest ss hgap hrest ih =>
      obtain ⟨sep, hgap, hsep⟩ := hgap
      cases hss with
      | @cons _ a _ as ha has =>
          obtain ⟨ls, hs, hthing⟩ := ha
          have hfront : ReadsAs (s ++ gap) (ls ++ sep) := hs.append (hclosed ls a hthing) hgap
          have hfrontClosed : IsClosed (ls ++ sep) := (hclosed ls a hthing).append hsep.isClosed
          by_cases hlast : ss = []
          · subst hlast
            cases hrest
            cases has
            refine ⟨ls ++ sep, ?_, hfrontClosed, DerivesList.last hthing hsep⟩
            rwa [String.append_empty]
          · obtain ⟨ms, hms, hmsClosed, hderives⟩ := ih has hlast
            refine ⟨ls ++ (sep ++ ms), ?_, ?_, DerivesList.cons hthing hsep hderives⟩
            · rw [← List.append_assoc]
              exact hfront.append hfrontClosed hms
            · rw [← List.append_assoc]
              exact hfrontClosed.append hmsClosed

/-! ### Pieces -/

/-- A part of a text that is an item. -/
structure Piece where
  text : String
  item : Item
  written : ∃ ls, ReadsAs text ls ∧ DerivesItem ls item

/-- A text that is read as an item is a piece. -/
def Piece.ofText (text : String) (item : Item)
    (hread : readItem none (Scan.ofText text).lexemes = .ok (item, []))
    (hend : (Scan.ofText text).ending.unread? = none) : Piece where
  text := text
  item := item
  written := by
    obtain ⟨ls, hls, hitem, -⟩ := reads_readItem.sound hread
    rw [List.append_nil] at hls
    exact ⟨ls, ⟨hls, hend⟩, hitem⟩

/-- The part is a loose expression. -/
def Piece.isLoose (p : Piece) : Bool := p.item.isLoose

/-- A text in a pair of braces. -/
def inBraces (s : String) : String := String.singleton '{' ++ s ++ String.singleton '}'

/-- **The second text has all loose expressions of the first in one pair of braces**, at the place
of the first of them, and the groups in braces in their order in front and behind. -/
inductive Regroups : String → String → Prop
  | intro {before rest : List Piece} {first : Piece} {text inner text' : String}
      (hbefore : ∀ p ∈ before, p.isLoose = false) (hfirst : first.isLoose = true)
      (htext : LaidOut ((before ++ first :: rest).map Piece.text) text)
      (hinner : LaidOut ((first :: rest.filter Piece.isLoose).map Piece.text) inner)
      (htext' : LaidOut (before.map Piece.text ++ inBraces inner ::
        (rest.filter fun p => !p.isLoose).map Piece.text) text') :
      Regroups text text'

theorem DerivesExpression.isClosed {ls : List Lexeme} {e : Expression}
    (h : DerivesExpression ls e) : IsClosed ls := by
  cases h with
  | @dates word ls => exact isClosed_symbol (.word word :: .symbol .openParen :: ls) nofun
  | @dial d word ls => exact isClosed_symbol (.word word :: .symbol .openParen :: ls) nofun

theorem DerivesItem.isClosed {ls : List Lexeme} {i : Item} (h : DerivesItem ls i) :
    IsClosed ls := by
  cases h with
  | @braced ls => exact isClosed_symbol (.symbol .openBrace :: ls) nofun
  | loose he => exact he.isClosed

/-- **Every schedule consists of pieces that are its items.** -/
theorem DerivesProgram.exists_pieces {ls : List Lexeme} {p : Program} (h : DerivesProgram ls p)
    {text : String} (htext : ReadsAs text ls) :
    ∃ pieces : List Piece, pieces.map Piece.item = p ∧ LaidOut (pieces.map Piece.text) text := by
  induction h generalizing text with
  | @last ls sep i hi hsep =>
      obtain ⟨s, gap, rfl, hs, hgap⟩ := htext.split
      refine ⟨[⟨s, i, ls, hs, hi⟩], rfl, ?_⟩
      rw [← String.append_empty (s := s ++ gap)]
      exact LaidOut.cons ⟨sep, hgap, hsep⟩ LaidOut.nil
  | @cons ls sep ms i p hi hsep _ ih =>
      obtain ⟨s, t, rfl, hs, ht⟩ := htext.split
      obtain ⟨gap, rest, rfl, hgap, hrest⟩ := ht.split
      obtain ⟨pieces, rfl, hpieces⟩ := ih hrest
      refine ⟨⟨s, i, ls, hs, hi⟩ :: pieces, rfl, ?_⟩
      rw [← String.append_assoc]
      exact LaidOut.cons ⟨sep, hgap, hsep⟩ hpieces

/-- The loose expressions of pieces are written by their texts. -/
theorem forall₂_loose (pieces : List Piece) :
    List.Forall₂ (fun s e => ∃ ls, ReadsAs s ls ∧ DerivesExpression ls e)
      ((pieces.filter Piece.isLoose).map Piece.text)
      ((pieces.map Piece.item).filterMap Item.loose?) := by
  induction pieces with
  | nil => exact List.Forall₂.nil
  | cons p pieces ih =>
      obtain ⟨text, item, ls, hls, hitem⟩ := p
      cases hitem with
      | braced => exact ih
      | loose he => exact List.Forall₂.cons ⟨ls, hls, he⟩ ih

/-- Pieces laid out mean the groups of their items. -/
theorem groupsOf_of_laidOut {ss : List String} {p : Program} {text : String}
    (h : LaidOut ss text) (hne : ss ≠ [])
    (hss : List.Forall₂ (fun s i => ∃ ls, ReadsAs s ls ∧ DerivesItem ls i) ss p) :
    groupsOf text = .ok p.groups := by
  obtain ⟨ls, ⟨hlexemes, hunread⟩, -, hderives⟩ :=
    h.exists_readsAs (fun _ _ hi => hi.isClosed) hss hne
  refine groupsOf_eq_ok_iff_read.2 ⟨p, Program.read_eq_ok_iff.2 ⟨hunread, ?_⟩, rfl⟩
  rwa [hlexemes]

theorem forall₂_items (pieces : List Piece) :
    List.Forall₂ (fun s i => ∃ ls, ReadsAs s ls ∧ DerivesItem ls i) (pieces.map Piece.text)
      (pieces.map Piece.item) := by
  rw [List.forall₂_map_left_iff, List.forall₂_map_right_iff, List.forall₂_same]
  exact fun p _ => p.written

/-- Expressions laid out in a pair of braces are a group in braces. -/
theorem LaidOut.exists_braced {ss : List String} {es : List Expression} {inner : String}
    (h : LaidOut ss inner) (hne : ss ≠ [])
    (hss : List.Forall₂ (fun s e => ∃ ls, ReadsAs s ls ∧ DerivesExpression ls e) ss es) :
    ∃ ls, ReadsAs (inBraces inner) ls ∧ DerivesItem ls (.braced es) := by
  obtain ⟨ls, hinner, hclosed, hderives⟩ := h.exists_readsAs (fun _ _ he => he.isClosed) hss hne
  have hopen : ReadsAs (String.singleton '{') [.symbol .openBrace] :=
    ⟨by decide +kernel, by decide +kernel⟩
  have hclose : ReadsAs (String.singleton '}') [.symbol .closeBrace] :=
    ⟨by decide +kernel, by decide +kernel⟩
  have hbrace : IsClosed [.symbol .openBrace] := isClosed_symbol [] nofun
  have hfront : ReadsAs (String.singleton '{' ++ inner) (.symbol .openBrace :: ls) :=
    hopen.append hbrace hinner
  exact ⟨_, hfront.append (hbrace.append hclosed) hclose, DerivesItem.braced hderives⟩

/-! ### Schedules -/

/-- **A text with all loose expressions of another in one pair of braces means the same groups.** -/
theorem Regroups.exists_groupsOf {text text' : String} (h : Regroups text text') :
    ∃ gs, groupsOf text = .ok gs ∧ groupsOf text' = .ok gs := by
  cases h with
  | @intro before rest first _ inner _ hbefore hfirst htext hinner htext' =>
      have hitems : ∀ i ∈ before.map Piece.item, i.isLoose = false := by
        intro i hi
        obtain ⟨p, hp, rfl⟩ := List.mem_map.1 hi
        exact hbefore p hp
      obtain ⟨e, he⟩ : ∃ e, first.item = .loose e := by
        cases hitem : first.item with
        | loose e => exact ⟨e, rfl⟩
        | braced es =>
            rw [Piece.isLoose, hitem] at hfirst
            cases hfirst
      have hmap : (first :: rest).map Piece.item = .loose e :: rest.map Piece.item := by
        rw [List.map_cons, he]
      -- the expressions between the new braces are the ones gathered before
      have hloose := forall₂_loose (first :: rest)
      rw [List.filter_cons_of_pos hfirst, hmap] at hloose
      obtain ⟨ls, hgroup⟩ := hinner.exists_braced (List.cons_ne_nil _ _) hloose
      have hrest := forall₂_items (rest.filter fun p => !p.isLoose)
      have hnew := groupsOf_of_laidOut htext' (by simp)
        (List.rel_append (forall₂_items before) (List.Forall₂.cons ⟨ls, hgroup⟩ hrest))
      have hold := groupsOf_of_laidOut htext (by simp) (forall₂_items _)
      have hgathered := Program.gathered_braced hitems e (rest.map Piece.item)
      rw [List.filter_map] at hgathered
      rw [List.map_append, hmap, Program.groups, ← hgathered] at hold
      exact ⟨_, hold, hnew⟩

/-- **Loose expressions are one group, wherever they stand.**  A schedule with a loose expression
can be written with all of them in one pair of braces at the place of the first, and every text got
in this way means the same groups. -/
theorem groupsOf_of_regroups {text : String} {gs : List Group} (h : groupsOf text = .ok gs)
    (hloose : ∃ p, DerivesProgram (Scan.ofText text).lexemes p ∧ ∃ e, Item.loose e ∈ p) :
    (∃ text', Regroups text text') ∧ ∀ text', Regroups text text' → groupsOf text' = .ok gs := by
  constructor
  · obtain ⟨p, hp, e, he⟩ := hloose
    obtain ⟨_, hread, -⟩ := groupsOf_eq_ok_iff_read.1 h
    obtain ⟨hunread, -⟩ := Program.read_eq_ok_iff.1 hread
    obtain ⟨pieces, rfl, hpieces⟩ := hp.exists_pieces ⟨rfl, hunread⟩
    obtain ⟨piece, hpiece, hitem⟩ := List.mem_map.1 he
    have hisLoose : piece.isLoose = true := by rw [Piece.isLoose, hitem]; rfl
    obtain ⟨first, hfound⟩ :=
      Option.isSome_iff_exists.1 (List.find?_isSome.2 ⟨piece, hpiece, hisLoose⟩)
    obtain ⟨hfirst, before, rest, rfl, hbefore⟩ := List.find?_eq_some_iff_append.1 hfound
    obtain ⟨inner, hinner⟩ := exists_laidOut ((first :: rest.filter Piece.isLoose).map Piece.text)
    obtain ⟨text', htext'⟩ := exists_laidOut (before.map Piece.text ++
      inBraces inner :: (rest.filter fun p => !p.isLoose).map Piece.text)
    have hbraced : ∀ p ∈ before, p.isLoose = false := fun p hp => by simpa using hbefore p hp
    exact ⟨text', Regroups.intro hbraced hfirst hpieces hinner htext'⟩
  · intro text' hregroups
    obtain ⟨gs', hold, hnew⟩ := hregroups.exists_groupsOf
    rw [hold] at h
    cases h
    exact hnew

/-- A group in braces stands between two loose expressions and stays there when they are moved
together. -/
theorem groupsOf_of_regroups_interleaved :
    let text := "{hours(8)}" ++ " " ++
      ("minutes(5)" ++ ",\n" ++ ("{hours(9)}" ++ "" ++ ("days(mon..fri)" ++ "" ++ "")))
    let inner := "minutes(5)" ++ " " ++ ("days(mon..fri)" ++ "," ++ "")
    let text' := "{hours(8)}" ++ " " ++ (inBraces inner ++ "," ++ ("{hours(9)}" ++ "" ++ ""))
    let hour (n : Int) : Group :=
      { hours.included := [Range.single n], minutes.included := [Range.single 0],
        seconds.included := [Range.single 0] }
    let loose : Group :=
      { daysOfWeek.included := [Range.of 2 6 false 1], minutes.included := [Range.single 5],
        seconds.included := [Range.single 0] }
    let gs := [hour 8, loose, hour 9]
    groupsOf text = .ok gs ∧
      (∃ p, DerivesProgram (Scan.ofText text).lexemes p ∧ ∃ e, Item.loose e ∈ p) ∧
        Regroups text text' ∧ groupsOf text' = .ok gs := by
  intro text inner text' hour loose gs
  have hread : Program.read none (Scan.ofText text).lexemes =
      .ok [.braced [.dial .hours [⟨false, .value 8, none⟩]],
        .loose (.dial .minutes [⟨false, .value 5, none⟩]),
        .braced [.dial .hours [⟨false, .value 9, none⟩]],
        .loose (.dial .daysOfWeek [⟨false, .range 2 6 false, none⟩])] := by decide +kernel
  have hok : groupsOf text = .ok gs := by decide +kernel
  have hloose : ∃ p, DerivesProgram (Scan.ofText text).lexemes p ∧ ∃ e, Item.loose e ∈ p :=
    ⟨_, (Program.read_eq_ok_iff.1 hread).2, _, List.mem_cons_of_mem _ List.mem_cons_self⟩
  have hblank : IsGap " " := ⟨[], ⟨by decide +kernel, by decide +kernel⟩, .absent⟩
  have hcomma : IsGap "," := ⟨[.symbol .comma], ⟨by decide +kernel, by decide +kernel⟩, .comma⟩
  have hline : IsGap ",\n" := ⟨[.symbol .comma], ⟨by decide +kernel, by decide +kernel⟩, .comma⟩
  have hregroups : Regroups text text' := by
    refine @Regroups.intro
      [.ofText "{hours(8)}" (.braced [.dial .hours [⟨false, .value 8, none⟩]])
        (by decide +kernel) (by decide +kernel)]
      [.ofText "{hours(9)}" (.braced [.dial .hours [⟨false, .value 9, none⟩]])
        (by decide +kernel) (by decide +kernel),
       .ofText "days(mon..fri)" (.loose (.dial .daysOfWeek [⟨false, .range 2 6 false, none⟩]))
        (by decide +kernel) (by decide +kernel)]
      (.ofText "minutes(5)" (.loose (.dial .minutes [⟨false, .value 5, none⟩]))
        (by decide +kernel) (by decide +kernel))
      text inner text' (fun p hp => by rw [List.mem_singleton.1 hp]; rfl) rfl ?_ ?_ ?_
    · exact .cons hblank (.cons hline (.cons isGap_empty (.cons isGap_empty .nil)))
    · exact .cons hblank (.cons hcomma .nil)
    · exact .cons hblank (.cons hcomma (.cons isGap_empty .nil))
  exact ⟨hok, hloose, hregroups, (groupsOf_of_regroups hok hloose).2 text' hregroups⟩

end Timetable

/-
**A schedule without an expression.**

There has to be an expression in a schedule and in each of its groups.  That one is missing is told
apart from all else that can be wrong, which is malformed, and it is found in two cases only: the
text is blank, or an empty pair of braces stands where the next item would, and all items before it
are right.  What follows the braces has not been looked at then.

Main definitions:

* `NeverEmpty` — reading does not miss an expression;
* `AreItems` — items that are right, or none;
* `LacksExpression` — **the text is blank, or its items end with an empty pair of braces**.

Main results:

* `exists_of_readList_eq_error` — a fault in a list is at one of its things, behind others that have
  been derived;
* `readList_eq_error_of_derives` — and a fault at a thing behind others is a fault in the list;
* `neverEmpty_readExpression` — an expression misses no expression;
* `readItem_eq_noExpression_iff` — an item misses one exactly if it is an empty pair of braces;
* `groupsOf_empty_iff` — **an expression is missing exactly in these two cases, and all other texts
  that are no schedules are malformed**.
-/

import Timetable.Proofs.Faults
import Timetable.Proofs.Language

set_option relaxedAutoImplicit false
set_option autoImplicit false

namespace Timetable

variable {unread : Option (List Char)}

/-! ### Faults in lists -/

section List

variable {α : Type} {read : Reader α} {thing : List Lexeme → α → Prop}
  {firsts marks : List Symbol} {stops : List Lexeme → Bool}

/-- **A fault in a list is at one of its things**, behind others that have been derived, unless a
comma cannot be taken. -/
theorem exists_of_readList_eq_error (h : Listed unread read thing firsts marks stops)
    {consumes : Consumes read} {fault : Fault} {ls : List Lexeme}
    (hfault : readList unread read consumes stops ls = .error fault)
    (hcause : ∀ text, fault.cause ≠ .unreadable text) :
    ∃ taken rest, ls = taken ++ rest ∧ (taken = [] ∨ ∃ as, DerivesList thing taken as) ∧
      read rest = .error fault := by
  fun_induction readList unread read consumes stops ls with
  | case1 ls fault' hread =>
      cases hfault
      exact ⟨[], ls, rfl, Or.inl rfl, hread⟩
  | case2 ls a ls₁ hread fault' hoptional =>
      cases hfault
      have hne (text : List Char) : ¬.unreadable text = fault.cause := Ne.symm (hcause text)
      exact absurd rfl (avoids_readOptional (P := (· = fault.cause)) hne .comma ls₁ fault hoptional)
  | case3 => cases hfault
  | case4 ls a ls₁ hread taken ls₂ hoptional hstops fault' hrest ih =>
      cases hfault
      obtain ⟨front, rfl, hderives, hend⟩ := h.reads.sound hread
      obtain ⟨sep, rfl, hsep, -⟩ := sound_readOptional_comma hoptional hend
      obtain ⟨taken', rest, rfl, htaken, hfault⟩ := ih hrest
      refine ⟨front ++ (sep ++ taken'), rest, by simp, Or.inr ?_, hfault⟩
      rcases htaken with rfl | ⟨as, has⟩
      · rw [List.append_nil]
        exact ⟨[a], DerivesList.last hderives hsep⟩
      · exact ⟨a :: as, DerivesList.cons hderives hsep has⟩
  | case5 => cases hfault

/-- A fault in the rest of a list is one in the list, if it goes on behind the first thing. -/
theorem readList_eq_error_of_thing (h : Listed unread read thing firsts marks stops)
    (consumes : Consumes read) {ls sep rest : List Lexeme} {a : α} {fault : Fault} (ha : thing ls a)
    (hsep : OptionalComma sep) (hfollows : NotBefore (.comma :: marks) rest)
    (hend : MayEnd unread rest) (hstops : stops rest = false)
    (hfault : readList unread read consumes stops rest = .error fault) :
    readList unread read consumes stops (ls ++ (sep ++ rest)) = .error fault := by
  obtain ⟨hread, b, hcomma⟩ := complete_thing h ha hsep hfollows hend
  rw [readList_eq]
  refine bind_eq_error_iff.2 (Or.inr ⟨(a, _), hread, ?_⟩)
  refine bind_eq_error_iff.2 (Or.inr ⟨(b, _), hcomma, ?_⟩)
  dsimp only
  rw [hstops, if_neg Bool.false_ne_true]
  exact bind_eq_error_iff.2 (Or.inl hfault)

/-- A fault at the first thing is one in the list. -/
theorem readList_eq_error_of_read (consumes : Consumes read) {ls : List Lexeme} {fault : Fault}
    (hfault : read ls = .error fault) :
    readList unread read consumes stops ls = .error fault := by
  rw [readList_eq]
  exact bind_eq_error_iff.2 (Or.inl hfault)

/-- **A fault at a thing behind others is a fault in the list**, if the list does not stop there. -/
theorem readList_eq_error_of_derives (h : Listed unread read thing firsts marks stops)
    (consumes : Consumes read) {taken rest : List Lexeme} {as : List α} {fault : Fault}
    (has : DerivesList thing taken as) (hfollows : NotBefore (.comma :: marks) rest)
    (hend : MayEnd unread rest) (hstops : stops rest = false) (hfault : read rest = .error fault) :
    readList unread read consumes stops (taken ++ rest) = .error fault := by
  induction has with
  | last ha hsep =>
      have hrest : readList unread read consumes stops rest = .error fault :=
        readList_eq_error_of_read consumes hfault
      rw [List.append_assoc]
      exact readList_eq_error_of_thing h consumes ha hsep hfollows hend hstops hrest
  | @cons ls sep ms a as ha hsep hrest ih =>
      have hms : Starts firsts (ms ++ rest) := (hrest.starts h.starts).append rest
      have hmarks : NotBefore (.comma :: marks) (ms ++ rest) :=
        fun s hs => hms.head?_ne (h.disjoint s hs)
      rw [List.append_assoc, List.append_assoc]
      exact readList_eq_error_of_thing h consumes ha hsep hmarks (fun _ => hms.ne_nil)
        (h.continues _ hms) ih

end List

/-! ### Expressions -/

/-- Reading does not miss an expression. -/
abbrev NeverEmpty {α : Type} (x : Except Fault α) : Prop := Avoids (· = Cause.noExpression) x

section Value

variable (ls : List Lexeme)

theorem neverEmpty_afterFirst : NeverEmpty (afterFirst unread ls) :=
  avoids_afterFirst (fun _ => nofun) ls

theorem neverEmpty_readSymbol (s : Symbol) : NeverEmpty (readSymbol unread s ls) := by
  unfold readSymbol
  split
  · exact neverEmpty_afterFirst ls
  · exact avoids_faultAt nofun ls

theorem neverEmpty_readOptional (s : Symbol) : NeverEmpty (readOptional unread s ls) :=
  avoids_readOptional (fun _ => nofun) s ls

theorem neverEmpty_readWord : NeverEmpty (readWord unread ls) := by
  unfold readWord
  split
  · exact (neverEmpty_afterFirst _).pair _
  · exact avoids_faultAt nofun ls

theorem neverEmpty_readNumeral : NeverEmpty (readNumeral unread ls) := by
  unfold readNumeral
  split
  · exact (neverEmpty_afterFirst _).pair _
  · exact avoids_faultAt nofun ls

theorem neverEmpty_valueOf (n : Numeral) : NeverEmpty (valueOf n ls) :=
  avoids_valueOf (fun _ => nofun) n ls

theorem neverEmpty_readInterval : NeverEmpty (readInterval unread ls) := by
  refine (neverEmpty_readNumeral ls).bind fun p => (neverEmpty_valueOf ls p.1).bind fun n => ?_
  split
  · exact avoids_faultAt nofun ls
  · split
    · exact avoids_faultAt nofun ls
    · exact avoids_ok _

theorem neverEmpty_readDate : NeverEmpty (readDate unread ls) := by
  have hdate (year : Option Int) (month day : Int) : NeverEmpty (dateOf year month day ls) :=
    avoids_dateOf (fun _ => nofun) (fun _ => nofun) (fun _ _ => nofun) year month day ls
  refine (neverEmpty_readNumeral ls).bind fun p => ?_
  refine (neverEmpty_readSymbol p.2 .slash).bind fun ls₂ => ?_
  refine (neverEmpty_readNumeral ls₂).bind fun q => ?_
  refine (neverEmpty_readOptional q.2 .slash).bind fun more => ?_
  dsimp only
  split
  · refine (neverEmpty_readNumeral more.2).bind fun r => ?_
    refine (neverEmpty_valueOf ls p.1).bind fun year => ?_
    refine (neverEmpty_valueOf ls₂ q.1).bind fun month => ?_
    refine (neverEmpty_valueOf more.2 r.1).bind fun day => ?_
    exact (hdate (some year) month day).pair _
  · refine (neverEmpty_valueOf ls p.1).bind fun month => ?_
    refine (neverEmpty_valueOf ls₂ q.1).bind fun day => ?_
    exact (hdate none month day).pair _

theorem neverEmpty_readDialValue (d : Dial) : NeverEmpty (readDialValue unread d ls) := by
  unfold readDialValue
  split
  · refine (neverEmpty_afterFirst _).bind fun rest => ?_
    refine (neverEmpty_valueOf _ _).bind fun n => ?_
    split
    · exact avoids_ok _
    · exact avoids_faultAt nofun _
  · split
    · refine (neverEmpty_afterFirst _).bind fun rest => ?_
      split
      · exact avoids_ok _
      · exact avoids_faultAt nofun _
    · exact avoids_faultAt nofun _
  · exact avoids_faultAt nofun ls

end Value

section Argument

variable {α : Type} [DecidableEq α] {readValue : Reader α} {endsFault? : α → α → Option Cause}

theorem neverEmpty_readRangeMark (ls : List Lexeme) : NeverEmpty (readRangeMark unread ls) := by
  unfold readRangeMark
  split
  · exact (neverEmpty_afterFirst _).pair _
  · exact (neverEmpty_afterFirst _).pair _
  · exact avoids_ok _

theorem neverEmpty_readExtent (hvalue : ∀ ls, NeverEmpty (readValue ls))
    (hends : ∀ a b, endsFault? a b ≠ some .noExpression) (ls : List Lexeme) :
    NeverEmpty (readExtent unread readValue endsFault? ls) := by
  refine (hvalue ls).bind fun start => ?_
  refine (neverEmpty_readRangeMark start.2).bind fun mark => ?_
  dsimp only
  split
  · exact avoids_ok _
  · refine (hvalue mark.2).bind fun stop => ?_
    split
    · exact avoids_faultAt nofun ls
    · split
      · rename_i hcause
        refine avoids_faultAt (fun hnone => hends start.1 stop.1 ?_) ls
        rw [hcause, hnone]
      · exact avoids_ok _

theorem neverEmpty_readArgument (hvalue : ∀ ls, NeverEmpty (readValue ls))
    (hends : ∀ a b, endsFault? a b ≠ some .noExpression) (ls : List Lexeme) :
    NeverEmpty (readArgument unread readValue endsFault? ls) := by
  have hextent (ls : List Lexeme) :
      NeverEmpty (readWildcardOrExtent unread readValue endsFault? ls) := by
    refine (neverEmpty_readOptional ls .wildcard).bind fun wildcard => ?_
    dsimp only
    split
    · exact avoids_ok _
    · exact neverEmpty_readExtent hvalue hends _
  have hinterval (ls : List Lexeme) : NeverEmpty (readOptionalInterval unread ls) := by
    refine (neverEmpty_readOptional ls .interval).bind fun marked => ?_
    dsimp only
    split
    · exact (neverEmpty_readInterval _).pair _
    · exact avoids_ok _
  refine (neverEmpty_readOptional ls .not).bind fun excluded => ?_
  refine (hextent _).bind fun extent => (hinterval _).bind fun interval => ?_
  dsimp only
  split
  · exact avoids_faultAt nofun ls
  · exact avoids_ok _

theorem neverEmpty_readDateArgument (ls : List Lexeme) :
    NeverEmpty (readDateArgument unread ls) := by
  refine neverEmpty_readArgument neverEmpty_readDate (fun a b => ?_) ls
  unfold dateEndsFault?
  split
  · nofun
  · split <;> nofun

theorem neverEmpty_readDialArgument (d : Dial) (ls : List Lexeme) :
    NeverEmpty (readDialArgument unread d ls) :=
  neverEmpty_readArgument (fun ls => neverEmpty_readDialValue ls d)
    (fun _ _ => (Option.some_ne_none _).symm) ls

end Argument

/-- A list misses no expression if none of its things does. -/
theorem neverEmpty_readList {α : Type} {read : Reader α} {thing : List Lexeme → α → Prop}
    {firsts marks : List Symbol} {stops : List Lexeme → Bool}
    (h : Listed unread read thing firsts marks stops) {consumes : Consumes read}
    (hread : ∀ ls, NeverEmpty (read ls)) (ls : List Lexeme) :
    NeverEmpty (readList unread read consumes stops ls) := by
  intro fault hfault hcause
  have hne (text : List Char) : fault.cause ≠ .unreadable text := by rw [hcause]; nofun
  obtain ⟨-, rest, -, -, hrest⟩ := exists_of_readList_eq_error h hfault hne
  exact hread rest fault hrest hcause

theorem neverEmpty_readArguments (kind : Kind) (ls : List Lexeme) :
    NeverEmpty (readArguments unread kind ls) := by
  refine (neverEmpty_readSymbol ls .openParen).bind fun ls₁ => ?_
  cases kind with
  | dates =>
      refine (neverEmpty_readList listed_readDateArgument neverEmpty_readDateArgument ls₁).bind
        fun p => ?_
      exact (neverEmpty_readSymbol p.2 .closeParen).pair _
  | dial d =>
      refine (neverEmpty_readList (listed_readDialArgument d) (neverEmpty_readDialArgument d)
        ls₁).bind fun p => ?_
      exact (neverEmpty_readSymbol p.2 .closeParen).pair _

/-- **An expression misses no expression.** -/
theorem neverEmpty_readExpression (ls : List Lexeme) : NeverEmpty (readExpression unread ls) := by
  refine (neverEmpty_readWord ls).bind fun name => ?_
  dsimp only
  split
  · exact avoids_faultAt nofun ls
  · exact neverEmpty_readArguments _ _

/-! ### Items and schedules -/

/-- A group misses an expression only if it is an empty pair of braces. -/
theorem readBraced_eq_noExpression {ls : List Lexeme} {left : Nat}
    (h : readBraced unread ls = .error ⟨.noExpression, left⟩) :
    ∃ after, ls = .symbol .openBrace :: .symbol .closeBrace :: after := by
  unfold readBraced at h
  rcases bind_eq_error_iff.1 h with hopen | ⟨ls₁, hopen, h⟩
  · exact absurd rfl (neverEmpty_readSymbol ls .openBrace _ hopen)
  · rw [readSymbol_eq_ok unread hopen]
    split at h
    · rename_i hclose
      obtain ⟨after, rfl⟩ := List.head?_eq_some_iff.1 (of_decide_eq_true hclose)
      exact ⟨after, rfl⟩
    · rcases bind_eq_error_iff.1 h with hlist | ⟨p, -, hclose⟩
      · exact absurd rfl (neverEmpty_readList listed_readExpression neverEmpty_readExpression ls₁ _
          hlist)
      · exact absurd rfl ((neverEmpty_readSymbol p.2 .closeBrace).pair _ _ hclose)

/-- **An item misses an expression exactly if it is an empty pair of braces.** -/
theorem readItem_eq_noExpression_iff {ls : List Lexeme} :
    (∃ left, readItem unread ls = .error ⟨.noExpression, left⟩) ↔
      ∃ after, ls = .symbol .openBrace :: .symbol .closeBrace :: after := by
  constructor
  · rintro ⟨left, h⟩
    unfold readItem at h
    split at h
    · rcases bind_eq_error_iff.1 h with hbraced | ⟨p, -, hpure⟩
      · exact readBraced_eq_noExpression hbraced
      · cases hpure
    · rcases bind_eq_error_iff.1 h with hloose | ⟨p, -, hpure⟩
      · exact absurd rfl (neverEmpty_readExpression _ _ hloose)
      · cases hpure
    · cases h
  · rintro ⟨after, rfl⟩
    exact ⟨_, rfl⟩

/-- Items that are right, or none. -/
def AreItems (ls : List Lexeme) : Prop := ls = [] ∨ ∃ p, DerivesProgram ls p

/-- **Reading misses an expression exactly if there is nothing to read or an empty pair of braces
stands behind items that are right.** -/
theorem Program.read_eq_noExpression_iff {ls : List Lexeme} :
    (∃ left, Program.read unread ls = .error ⟨.noExpression, left⟩) ↔
      (ls = [] ∧ unread = none) ∨ ∃ items after, AreItems items ∧
        ls = items ++ .symbol .openBrace :: .symbol .closeBrace :: after := by
  constructor
  · rintro ⟨left, h⟩
    cases ls with
    | nil =>
        cases unread with
        | none => exact Or.inl ⟨rfl, rfl⟩
        | some text => cases h
    | cons l ls =>
        obtain ⟨items, rest, htaken, hitems, hrest⟩ :=
          exists_of_readList_eq_error listed_readItem (read_cons_eq_error_iff.1 h) fun _ => nofun
        obtain ⟨after, rfl⟩ := readItem_eq_noExpression_iff.1 ⟨left, hrest⟩
        exact Or.inr ⟨items, after, hitems, htaken⟩
  · rintro (⟨rfl, rfl⟩ | ⟨items, after, hitems, hls⟩)
    · exact ⟨0, rfl⟩
    · obtain ⟨left, hempty⟩ := readItem_eq_noExpression_iff.2 ⟨after, rfl⟩
      have hlist : readList unread (readItem unread) (consumes_readItem unread) List.isEmpty ls =
          .error ⟨.noExpression, left⟩ := by
        rw [hls]
        rcases hitems with rfl | ⟨p, hp⟩
        · exact readList_eq_error_of_read _ hempty
        · exact readList_eq_error_of_derives listed_readItem _ hp (by simp [NotBefore])
            (mayEnd_cons _ _) rfl hempty
      have hne : ls ≠ [] := by
        rw [hls]
        exact List.append_ne_nil_of_right_ne_nil items (List.cons_ne_nil _ _)
      obtain ⟨l, ls, rfl⟩ := List.exists_cons_of_ne_nil hne
      exact ⟨left, read_cons_eq_error_iff.2 hlist⟩

/-! ### Texts -/

/-- Reading a text finds no token and comes to its end exactly if it is blank. -/
theorem Scan.ofRest_eq_finished_iff (offset : Nat) (cs : List Char) :
    ((Scan.ofRest offset cs).tokens = [] ∧ (Scan.ofRest offset cs).ending.unread? = none) ↔
      ∀ c ∈ cs, isBlank c = true := by
  fun_induction Scan.ofRest offset cs with
  | case1 offset => simp [Ending.unread?]
  | case2 offset c rest hblank ih => rw [ih, List.forall_mem_cons, and_iff_right hblank]
  | case3 offset c rest hblank l after hlexeme stop scan ih =>
      simp [hblank]
  | case4 offset c rest hblank hnone => simp [hblank, Ending.unread?]

/-- **There is no expression where there has to be one**: the text is blank, or an empty pair of
braces stands behind items that are right. -/
inductive LacksExpression (text : String) : Prop
  | blank (h : ∀ c ∈ text.toList, isBlank c = true)
  | emptyGroup (items after : List Lexeme) (hitems : AreItems items)
      (h : (Scan.ofText text).lexemes =
        items ++ .symbol .openBrace :: .symbol .closeBrace :: after)

/-- **An expression is missing exactly if the text is blank or an empty pair of braces stands behind
items that are right.**  All other texts that are no schedules are malformed. -/
theorem groupsOf_empty_iff (text : String) :
    ((∃ message, groupsOf text = .error (.empty message)) ↔ LacksExpression text) ∧
      ∀ e, groupsOf text = .error e → (∃ message, e = .empty message) ∨
        ∃ message span input, e = .malformed message span input := by
  constructor
  · simp only [groupsOf_eq_empty_iff_read, exists_eq_left, Program.read_eq_noExpression_iff]
    have hblank := Scan.ofRest_eq_finished_iff 0 text.toList
    constructor
    · rintro (⟨hlexemes, hunread⟩ | ⟨items, after, hitems, hlexemes⟩)
      · exact LacksExpression.blank (hblank.1 ⟨List.map_eq_nil_iff.1 hlexemes, hunread⟩)
      · exact LacksExpression.emptyGroup items after hitems hlexemes
    · rintro (h | ⟨items, after, hitems, hlexemes⟩)
      · obtain ⟨htokens, hunread⟩ := hblank.2 h
        exact Or.inl ⟨List.map_eq_nil_iff.2 htokens, hunread⟩
      · exact Or.inr ⟨items, after, hitems, hlexemes⟩
  · intro e he
    cases e with
    | malformed message span input => exact Or.inr ⟨message, span, input, rfl⟩
    | empty message => exact Or.inl ⟨message, rfl⟩
    | noValidTime source => exact absurd he (groupsOf_ne_noValidTime text source)

/-- The empty braces stand behind an expression and a group.  No item begins like what follows them,
and the last character cannot be read. -/
theorem groupsOf_empty_iff_behind_items :
    let text := "hours(5),\t{dom(-1) min(*%7)}\n{ } ) ☃"
    (∃ message, groupsOf text = .error (.empty message)) ∧ LacksExpression text := by
  intro text
  have herror : ∃ message, groupsOf text = .error (.empty message) :=
    ⟨"schedule must contain at least one expression", by decide +kernel⟩
  exact ⟨herror, (groupsOf_empty_iff text).1.1 herror⟩

end Timetable

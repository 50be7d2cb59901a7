/-
**The first token that does not fit.**

A text is often wrong because a lexeme stands where others are expected.  The lexemes in front of it
then begin a schedule, as far as the order of lexemes goes, and no schedule goes on with the one
found; or the text ends there and is no schedule yet.  Each sort of lexeme that the message names
would have been the beginning of a schedule in its place.

So the message is at the first token that cannot go on.  That the values of a schedule may be named
is another matter, and left out of its shape here: a number too large is found where it stands, but
it is a number.

Main definitions:

* `KeepsToListed` — things that can stand in a list, whose readers keep to their shape;
* `IsViable` — lexemes that begin something of the shape of a schedule;
* `Scan.StopsFitting` — **a token is the first that does not fit, and others would**.

Main results:

* `keepsTo_readList` — reading a list keeps to its shape, if reading the things in it does;
* `keepsTo_readExpression`, `keepsTo_readItem` — expressions and items;
* `Program.misfit_of_read_eq_error` — so does reading a schedule;
* `Cause.isUnexpected_of_message` — the message of an unexpected lexeme is known by its first word;
* `groupsOf_unexpected` — **a message of an unexpected token is at the first that does not fit, and
  names only sorts that do**.
-/

import Timetable.Proofs.KeepingToShape
import Timetable.Proofs.Layout

set_option relaxedAutoImplicit false
set_option autoImplicit false

namespace Timetable

variable {unread : Option (List Char)}

/-! ### Lists -/

/-- Things that can stand in a list with optional commas, and whose readers keep to their shape.
The words of the shape start like the things do, and the next lexeme decides whether the list
stops. -/
structure KeepsToListed (unread : Option (List Char)) {α : Type} (read : Reader α)
    (derives : List Lexeme → α → Prop) (thing : Language Lexeme) (firsts marks : List Symbol)
    (stops : List Lexeme → Bool) : Prop
    extends Listed unread read derives firsts marks stops where
  /-- A thing is read in front of anything that does not go on with it. -/
  keeps : ∀ {K : Language Lexeme} {ls : List Lexeme}, Fillable K → (∀ w ∈ K, NotBefore marks w) →
    KeepsTo unread (thing * K) (fun _ => K) ls (read ls)
  /-- The shape starts with one of the first symbols or none. -/
  shape_starts : Shape.StartsWith firsts thing
  /-- There are things of this shape. -/
  fillable : Fillable thing
  /-- The next lexeme decides whether the list stops. -/
  stops_congr : ∀ ls ls' : List Lexeme, ls.head? = ls'.head? → stops ls = stops ls'

section List

variable {α : Type} {read : Reader α} {derives : List Lexeme → α → Prop}
  {thing K : Language Lexeme} {firsts marks : List Symbol} {stops : List Lexeme → Bool}

/-- **Reading a list keeps to its shape.** -/
theorem keepsTo_readList (h : KeepsToListed unread read derives thing firsts marks stops)
    {consumes : Consumes read} (hK : Fillable K) (hstops : ∀ w ∈ K, stops w = true)
    {ls : List Lexeme} :
    KeepsTo unread (Shape.listed thing * K) (fun _ => K) ls
      (readList unread read consumes stops ls) := by
  have hlist : Shape.StartsWith firsts (Shape.listed thing * K) := h.shape_starts.listed.mul K
  -- where a thing with its comma has been read the list ends or goes on with another thing
  have hnext (w : List Lexeme) (hw : w ∈ K + Shape.listed thing * K) :
      NotBefore (.comma :: marks) w := by
    rcases hw with hw | hw
    · exact h.ends w (hstops w hw)
    · exact fun s hs => (hlist w hw).head?_ne (h.disjoint s hs)
  have hsep (w : List Lexeme)
      (hw : w ∈ (1 + Shape.symbol .comma) * (K + Shape.listed thing * K)) : NotBefore marks w := by
    rw [Shape.optional_mul, Language.mem_add, Shape.mem_symbol_mul] at hw
    rcases hw with ⟨rest, -, rfl⟩ | hw
    · intro s hs heq
      cases heq
      exact h.comma_notMem hs
    · exact (hnext w hw).mono (List.subset_cons_self _ _)
  have hfill : Fillable ((1 + Shape.symbol .comma) * (K + Shape.listed thing * K)) :=
    (Fillable.optional _).mul (hK.add_left _)
  -- a thing takes something, so the induction is on how many lexemes are left
  induction hn : ls.length using Nat.strongRecOn generalizing ls with
  | ind n ih =>
      rw [readList_eq, Shape.listed_mul]
      refine (h.keeps hfill hsep).bind fun a ls₁ hfirst => ?_
      rw [Shape.optional_mul]
      refine (keepsTo_readOptional fun w hw => hnext w hw .comma (by simp)).bind
        fun taken ls₂ hcomma => ?_
      have hlt : ls₂.length < n :=
        hn ▸ Nat.lt_of_le_of_lt (readOptional_length unread hcomma) (consumes hfirst)
      rw [ite_self]
      dsimp only
      split
      · rename_i hstop
        refine KeepsTo.narrow (fun w => Or.inl) (fun w hhead hw => ?_) (KeepsTo.pure rfl)
        refine hw.resolve_right fun hw => ?_
        have hgoes := h.continues w (hlist w hw)
        rw [h.stops_congr w ls₂ hhead, hstop] at hgoes
        cases hgoes
      · rename_i hstop
        refine KeepsTo.narrow (fun w => Or.inr) (fun w hhead hw => ?_)
          ((ih ls₂.length hlt rfl).bind fun as rest _ => KeepsTo.pure rfl)
        refine hw.resolve_left fun hw => hstop ?_
        rw [← h.stops_congr w ls₂ hhead]
        exact hstops w hw

end List

/-! ### Lists in brackets -/

section Bracketed

variable {α β : Type} {read : Reader α} {derives : List Lexeme → α → Prop}
  {thing K : Language Lexeme} {firsts marks : List Symbol} {close : Symbol}

theorem startsWith_congr (s : Symbol) (ls ls' : List Lexeme) (h : ls.head? = ls'.head?) :
    startsWith s ls = startsWith s ls' := by
  unfold startsWith
  rw [h]

theorem keepsTo_bracketed
    (h : KeepsToListed unread read derives thing firsts marks (startsWith close))
    {consumes : Consumes read} (hK : Fillable K) (build : List α → β) {ls : List Lexeme} :
    KeepsTo unread (Shape.listed thing * (Shape.symbol close * K)) (fun _ => K) ls
      (do let (as, rest) ← readList unread read consumes (startsWith close) ls
          return (build as, ← readSymbol unread close rest)) := by
  have hclose (w : List Lexeme) (hw : w ∈ Shape.symbol close * K) :
      startsWith close w = true := by
    obtain ⟨rest, -, rfl⟩ := Shape.mem_symbol_mul.1 hw
    exact decide_eq_true rfl
  refine (keepsTo_readList h ((fillable_symbol close).mul hK) hclose).bind fun as rest _ => ?_
  exact keepsTo_readSymbol hK fun rest' _ => KeepsTo.pure rfl

end Bracketed

/-! ### Expressions and items -/

section Item

variable {K : Language Lexeme} {ls : List Lexeme}

theorem keepsToListed_readDateArgument :
    KeepsToListed unread (readDateArgument unread) DerivesDateArgument
      (Shape.argument (Shape.value .dates)) [.wildcard, .not] argumentMarks
      (startsWith .closeParen) where
  toListed := listed_readDateArgument
  keeps := keepsTo_readArgument keepsToValues_date
  shape_starts := Shape.startsWith_argument (Shape.startsWith_value _)
  fillable := fillable_argument _
  stops_congr := startsWith_congr _

theorem keepsToListed_readDialArgument (d : Dial) :
    KeepsToListed unread (readDialArgument unread d) (DerivesDialArgument d)
      (Shape.argument (Shape.value (.dial d))) [.wildcard, .not] argumentMarks
      (startsWith .closeParen) where
  toListed := listed_readDialArgument d
  keeps := keepsTo_readArgument (keepsToValues_dial d)
  shape_starts := Shape.startsWith_argument (Shape.startsWith_value _)
  fillable := fillable_argument _
  stops_congr := startsWith_congr _

theorem keepsTo_readArguments (kind : Kind) (hK : Fillable K) :
    KeepsTo unread (Shape.arguments kind * K) (fun _ => K) ls (readArguments unread kind ls) := by
  have hclose : Fillable (Shape.symbol .closeParen * K) := (fillable_symbol _).mul hK
  rw [Shape.arguments, mul_assoc, mul_assoc]
  refine keepsTo_readSymbol ((fillable_argument _).listed.mul hclose) fun rest _ => ?_
  cases kind with
  | dates => exact keepsTo_bracketed keepsToListed_readDateArgument hK Expression.dates
  | dial d => exact keepsTo_bracketed (keepsToListed_readDialArgument d) hK (Expression.dial d)

theorem keepsTo_readExpression (hK : Fillable K) :
    KeepsTo unread (Shape.expression * K) (fun _ => K) ls (readExpression unread ls) := by
  refine (keepsTo_readWord (fun _ => Shape.exists_word) (fillable_expression.mul hK)).bind
    fun letters rest _ => ?_
  dsimp only
  split
  · exact KeepsTo.fault id
  · rename_i kind hkind
    have hname : kind.Named letters := Kind.ofName?_eq_some_iff.1 hkind
    refine KeepsTo.narrow (L := Shape.arguments kind * K) (fun w hw => ?_) (fun w _ hw => ?_)
      (keepsTo_readArguments kind hK)
    · exact Shape.mem_expression_mul.2 ⟨letters, kind, hname, w, hw, rfl⟩
    · obtain ⟨letters', kind', hname', w', hw', heq⟩ := Shape.mem_expression_mul.1 hw
      cases heq
      -- no name belongs to two kinds
      rw [Kind.ofName?_eq_some_iff.2 hname'] at hkind
      cases hkind
      exact hw'

theorem keepsToListed_readExpression :
    KeepsToListed unread (readExpression unread) DerivesExpression Shape.expression [] []
      (startsWith .closeBrace) where
  toListed := listed_readExpression
  keeps := fun hK _ => keepsTo_readExpression hK
  shape_starts := Shape.startsWith_expression
  fillable := fillable_expression
  stops_congr := startsWith_congr _

theorem keepsTo_readBraced (hK : Fillable K) :
    KeepsTo unread (Shape.group * K) (fun _ => K) ls (readBraced unread ls) := by
  have hclose : Fillable (Shape.symbol .closeBrace * K) := (fillable_symbol _).mul hK
  rw [Shape.group, mul_assoc, mul_assoc]
  refine keepsTo_readSymbol (fillable_expression.listed.mul hclose) fun rest _ => ?_
  split
  · exact KeepsTo.fault id
  · exact keepsTo_bracketed keepsToListed_readExpression hK id

theorem fillable_group : Fillable Shape.group :=
  ((fillable_symbol _).mul fillable_expression.listed).mul (fillable_symbol _)

theorem keepsTo_readItem (hK : Fillable K) :
    KeepsTo unread ((Shape.group + Shape.expression) * K) (fun _ => K) ls
      (readItem unread ls) := by
  rw [add_mul]
  unfold readItem
  split
  · refine KeepsTo.narrow (fun w => Or.inl) (fun w hhead hw => ?_)
      ((keepsTo_readBraced hK).bind fun es rest _ => KeepsTo.pure rfl)
    refine hw.resolve_right fun hw => ?_
    obtain ⟨letters, rest, rfl⟩ := Shape.exists_word hw
    cases hhead
  · refine KeepsTo.narrow (fun w => Or.inr) (fun w hhead hw => ?_)
      ((keepsTo_readExpression hK).bind fun e rest _ => KeepsTo.pure rfl)
    refine hw.resolve_left fun hw => ?_
    obtain ⟨rest, rfl⟩ := Shape.exists_openBrace hw
    cases hhead
  · rename_i hbrace hword
    refine KeepsTo.unexpectedAt (by simp) (fun w hhead hw => ?_) (fun form hform => ?_)
    · rcases hw with hw | hw
      · obtain ⟨rest, rfl⟩ := Shape.exists_openBrace hw
        obtain ⟨rest', rfl⟩ := List.head?_eq_some_iff.1 hhead.symm
        exact hbrace rest' rfl
      · obtain ⟨letters, rest, rfl⟩ := Shape.exists_word hw
        obtain ⟨rest', rfl⟩ := List.head?_eq_some_iff.1 hhead.symm
        exact hword letters rest' rfl
    · obtain ⟨w, hw, hspell⟩ := fillable_group.mul hK
      obtain ⟨rest, rfl⟩ := Shape.exists_openBrace hw
      obtain ⟨w', hw', hspell'⟩ := fillable_expression.mul hK
      obtain ⟨letters, rest', rfl⟩ := Shape.exists_word hw'
      rcases List.mem_pair.1 hform with rfl | rfl
      · exact ⟨_, rest, rfl, hspell, Or.inl hw⟩
      · exact ⟨_, rest', rfl, hspell', Or.inr hw'⟩

theorem keepsToListed_readItem :
    KeepsToListed unread (readItem unread) DerivesItem (Shape.group + Shape.expression)
      [.openBrace] [] List.isEmpty where
  toListed := listed_readItem
  keeps := fun hK _ => keepsTo_readItem hK
  shape_starts := Shape.startsWith_item
  fillable := fillable_group.add_left _
  stops_congr := by
    intro ls ls' h
    cases ls <;> cases ls' <;> simp_all

/-- **A lexeme that was not expected is the first that does not fit the shape of a schedule.** -/
theorem Program.misfit_of_read_eq_error {found : Option Form} {expected : List Form} {left : Nat}
    (h : Program.read unread ls = .error ⟨.unexpected found expected, left⟩) :
    ∃ before after, ls = before ++ after ∧ left = after.length ∧
      Misfit unread Shape.program before after found expected := by
  cases ls with
  | nil => cases unread <;> cases h
  | cons l ls =>
      have hkeeps : KeepsTo unread (Shape.listed (Shape.group + Shape.expression) * 1)
          (fun _ => 1) (l :: ls)
          (readList unread (readItem unread) (consumes_readItem unread) List.isEmpty (l :: ls)) :=
        keepsTo_readList keepsToListed_readItem Fillable.one fun w hw => by rw [hw]; rfl
      rw [mul_one] at hkeeps
      exact hkeeps.unexpected (mayEnd_cons l ls) (read_cons_eq_error_iff.1 h)

end Item

/-! ### Messages -/

/-- A number is written with a sign or a digit at first. -/
theorem exists_toList_toString (n : Int) :
    ∃ c cs, (toString n).toList = c :: cs ∧ (c = '-' ∨ c.isDigit = true) := by
  have hdigits (m : Nat) : ∃ c cs, m.repr.toList = c :: cs ∧ c.isDigit = true := by
    rw [Nat.repr_eq_ofList_toDigits, String.toList_ofList]
    obtain ⟨c, cs, hcs⟩ := List.exists_cons_of_ne_nil (Nat.toDigits_ne_nil (b := 10) (n := m))
    have hc : c ∈ Nat.toDigits 10 m := hcs ▸ List.mem_cons_self
    exact ⟨c, cs, hcs, Nat.isDigit_of_mem_toDigits (by decide) (by decide) hc⟩
  cases n with
  | ofNat m =>
      obtain ⟨c, cs, hcs, hc⟩ := hdigits m
      exact ⟨c, cs, hcs, Or.inr hc⟩
  | negSucc m => exact ⟨'-', _, String.toList_append, Or.inl rfl⟩

theorem take_toList_toString_ne (n : Int) (cs : List Char) :
    ((toString n).toList ++ cs).take 3 ≠ ['u', 'n', 'e'] := by
  intro h
  obtain ⟨c, ds, hds, hc⟩ := exists_toList_toString n
  rw [hds] at h
  obtain rfl : c = 'u' := List.head_eq_of_cons_eq h
  rcases hc with hc | hc <;> cases hc

/-- Only the message of an unexpected lexeme tells its place. -/
theorem Cause.message_eq_of_not_isUnexpected {cause : Cause} (h : ¬cause.IsUnexpected)
    (index : Nat) : cause.message index = cause.message 0 := by
  cases cause with
  | unexpected found expected => exact absurd trivial h
  | _ => rfl

/-- No other message than that of an unexpected lexeme starts like it. -/
theorem Cause.isUnexpected_of_message {cause : Cause} {index : Nat} {rest : String}
    (h : cause.message index = "unexpected " ++ rest) : cause.IsUnexpected := by
  by_contra hother
  have hchars : (cause.message 0).toList.take 3 = ['u', 'n', 'e'] := by
    rw [← message_eq_of_not_isUnexpected hother index, h, String.toList_append]
    rfl
  have hfront {cs ds : List Char} (hlength : 3 ≤ cs.length) (hne : cs.take 3 ≠ ['u', 'n', 'e']) :
      (cs ++ ds).take 3 ≠ ['u', 'n', 'e'] := by
    rwa [List.take_append_of_le_length hlength]
  cases cause
  case unexpected found expected => exact hother trivial
  case noExpression | excludedWildcard | emptyRange | mixedDates | reversedDates =>
      revert hchars
      decide
  case notAnInterval n =>
      unfold message at hchars
      rw [String.toList_append] at hchars
      exact take_toList_toString_ne n " is not a valid interval".toList hchars
  case badDay day days =>
      unfold message at hchars
      rw [String.toList_append, String.toList_append, List.append_assoc] at hchars
      exact take_toList_toString_ne day _ hchars
  all_goals
    unfold message at hchars
    simp only [String.toList_append, String.toList_ofList, List.append_assoc] at hchars
    exact absurd hchars (hfront (by decide) (by decide))

/-! ### Texts -/

/-- The lexemes begin something of the shape of a schedule, which goes on with lexemes that can be
written. -/
def IsViable (ls : List Lexeme) : Prop :=
  ∃ more : List Lexeme, (∀ l ∈ more, l.IsSpellable) ∧ ls ++ more ∈ Shape.program

namespace Scan

/-- **A token is the first that does not fit the shape of a schedule, and others would fit.**  The
tokens of a text are parted in front of it, or it is the end of the text if none is left. -/
structure StopsFitting (s : Scan) (before after : List Token) (expected : List Form) : Prop where
  /-- All tokens are in front of the place or behind it. -/
  tokens_eq : s.tokens = before ++ after
  /-- If none is behind it, the text has been read to its end. -/
  finished : after = [] → s.ending.unread? = none
  /-- The tokens in front of the place begin a schedule. -/
  viable : IsViable (before.map Token.lexeme)
  /-- No schedule goes on with the token at the place. -/
  misfit : ∀ t ∈ after.head?, ∀ more : List Lexeme,
    before.map Token.lexeme ++ t.lexeme :: more ∉ Shape.program
  /-- If there is none, the tokens are no schedule. -/
  incomplete : after = [] → before.map Token.lexeme ∉ Shape.program
  /-- Something is expected. -/
  expected_ne : expected ≠ []
  /-- A lexeme of each sort that is expected would fit. -/
  continues : ∀ form ∈ expected, ∃ l : Lexeme, l.form = form ∧ l.IsSpellable ∧
    IsViable (before.map Token.lexeme ++ [l])

variable {s : Scan} {before after : List Token}

/-- The place in front of the last tokens is the place of the first of these. -/
theorem spanFromEnd_length (h : s.tokens = before ++ after) :
    s.spanFromEnd after.length = (after.head?.map Token.span).getD s.ending.span := by
  unfold spanFromEnd
  cases after with
  | nil => rfl
  | cons t after =>
      rw [if_neg (by simp), h]
      simp

/-- What does not fit the lexemes of a text does not fit its tokens. -/
theorem stopsFitting_of_misfit {found : Option Form} {expected : List Form}
    (htokens : s.tokens = before ++ after)
    (h : Misfit s.ending.unread? Shape.program (before.map Token.lexeme) (after.map Token.lexeme)
      found expected) : s.StopsFitting before after expected where
  tokens_eq := htokens
  finished hafter := by
    by_contra hunread
    exact h.mayEnd hunread (by rw [hafter]; rfl)
  viable := by
    obtain ⟨form, hform⟩ := List.exists_mem_of_ne_nil _ h.expected_ne
    obtain ⟨l, more, -, hspell, hmem⟩ := h.offered form hform
    exact ⟨l :: more, hspell, hmem⟩
  misfit t ht more := by
    refine h.refused _ ?_
    rw [List.head?_map, Option.mem_def.1 ht]
    rfl
  incomplete hafter := by
    have hend := h.refused [] (by rw [hafter]; rfl)
    rwa [List.append_nil] at hend
  expected_ne := h.expected_ne
  continues form hform := by
    obtain ⟨l, more, hl, hspell, hmem⟩ := h.offered form hform
    obtain ⟨hspell, hmore⟩ := List.forall_mem_cons.1 hspell
    exact ⟨l, hl, hspell, more, hmore, by rwa [List.append_assoc]⟩

end Scan

/-- **A message of an unexpected token is at the first token that does not fit, and names only sorts
of lexemes that do.** -/
theorem groupsOf_unexpected {text rest input : String} {span : Span}
    (h : groupsOf text = .error (.malformed ("unexpected " ++ rest) span input)) :
    ∃ before after expected, (Scan.ofText text).StopsFitting before after expected ∧
      span = (after.head?.map Token.span).getD ⟨text.utf8ByteSize, text.utf8ByteSize⟩ ∧
        "unexpected " ++ rest = (Cause.unexpected (after.head?.map fun t => t.lexeme.form)
          expected).message span.start := by
  obtain ⟨⟨cause, left⟩, hread, -, hspan, hmessage, -⟩ := groupsOf_eq_malformed_iff_read.1 h
  cases cause with
  | unexpected found expected =>
      obtain ⟨lsBefore, lsAfter, hlexemes, rfl, hmisfit⟩ := Program.misfit_of_read_eq_error hread
      obtain ⟨before, after, htokens, rfl, rfl⟩ := List.map_eq_append_iff.1 hlexemes
      have hstops := Scan.stopsFitting_of_misfit htokens hmisfit
      have hfound : found = after.head?.map fun t => t.lexeme.form := by
        rw [hmisfit.found_eq, List.head?_map, Option.map_map]
        rfl
      have hplace : (Scan.ofText text).spanFromEnd after.length =
          (after.head?.map Token.span).getD ⟨text.utf8ByteSize, text.utf8ByteSize⟩ := by
        rw [Scan.spanFromEnd_length htokens]
        cases after with
        | nil => exact Scan.span_ending_ofText (hstops.finished rfl)
        | cons t after => rfl
      rw [List.length_map] at hspan
      refine ⟨before, after, expected, hstops, hspan.trans hplace, ?_⟩
      rw [hmessage, hfound]
  | _ => exact absurd (Cause.isUnexpected_of_message hmessage.symm) id

/-- A group is closed while the arguments of an expression in it go on. -/
theorem groupsOf_unexpected_closeBrace :
    let text := "{dates(2/29..3/1, !2020/4/5%2) dow(mon..fri,*}, hours(5) %"
    let rest := "'" ++ String.singleton '}' ++ "' at index 45, expected one of integer, word"
    let e : ScheduleError := .malformed ("unexpected " ++ rest) ⟨45, 46⟩ text
    groupsOf text = .error e ∧
      ∃ before after expected, (Scan.ofText text).StopsFitting before after expected ∧
        (⟨45, 46⟩ : Span) =
            (after.head?.map Token.span).getD ⟨text.utf8ByteSize, text.utf8ByteSize⟩ ∧
          "unexpected " ++ rest =
            (Cause.unexpected (after.head?.map fun t => t.lexeme.form) expected).message 45 := by
  intro text rest e
  have herror : groupsOf text = .error e := by decide +kernel
  exact ⟨herror, groupsOf_unexpected herror⟩

end Timetable

/-
**Schedules are read as the grammar derives them.**

Arguments, expressions and items all stand in lists whose separators are optional.  What makes such
a list readable with one lexeme of look-ahead is that its things, the comma, the lexeme at which the
list stops and the lexemes that would go on with a thing are told apart by their first lexeme.  The
reader of lists is sound and complete under this condition, whatever the things are, and each list
of the grammar meets it.

A schedule has to be read to its end, so it is never read from a text that cannot be.

Main definitions:

* `Listed` — the things, the comma and the end of a list are told apart by their first lexeme.

Main results:

* `reads_readList` — lists are read as they are derived;
* `reads_readExpression`, `reads_readItem` — expressions and items;
* `Program.read_eq_ok_iff` — **a schedule is read exactly from the lexemes that derive it**, if the
  text could be read to its end.
-/

import Mathlib.Logic.Basic
import Timetable.Program.Reader
import Timetable.Proofs.ArgumentLanguage

set_option relaxedAutoImplicit false
set_option autoImplicit false

namespace Timetable

variable {unread : Option (List Char)}

/-! ### Optional commas -/

theorem sound_readOptional_comma {ls rest : List Lexeme} {taken : Bool}
    (h : readOptional unread .comma ls = .ok (taken, rest)) (hls : MayEnd unread ls) :
    ∃ sep, ls = sep ++ rest ∧ OptionalComma sep ∧ MayEnd unread rest := by
  cases taken with
  | true =>
      obtain ⟨rfl, hend⟩ := readOptional_eq_true_iff.1 h
      exact ⟨[.symbol .comma], rfl, OptionalComma.comma, hend⟩
  | false =>
      obtain ⟨rfl, -⟩ := readOptional_eq_false_iff.1 h
      exact ⟨[], rfl, OptionalComma.absent, hls⟩

theorem complete_readOptional_comma {sep rest : List Lexeme} (h : OptionalComma sep)
    (hne : rest.head? ≠ some (.symbol .comma)) (hend : MayEnd unread rest) :
    ∃ taken, readOptional unread .comma (sep ++ rest) = .ok (taken, rest) := by
  cases h with
  | absent => exact ⟨false, readOptional_eq_false_iff.2 ⟨rfl, hne⟩⟩
  | comma => exact ⟨true, readOptional_eq_true_iff.2 ⟨rfl, hend⟩⟩

/-! ### Lists -/

/-- Things that can stand in a list with optional commas: they start with one of the symbols
`firsts` or none, they go on with one of the symbols `marks` at most, and the list stops in front of
neither a thing nor a comma nor one of these symbols. -/
structure Listed (unread : Option (List Char)) {α : Type} (read : Reader α)
    (thing : List Lexeme → α → Prop) (firsts marks : List Symbol)
    (stops : List Lexeme → Bool) : Prop where
  /-- Things are read as they are derived, unless something goes on with them. -/
  reads : Reads unread read thing (NotBefore marks)
  /-- Things start with one of their first symbols or none. -/
  starts : ∀ (ls : List Lexeme) (a : α), thing ls a → Starts firsts ls
  /-- A thing starts neither like the rest of another nor with a comma. -/
  disjoint : ∀ s ∈ Symbol.comma :: marks, s ∉ firsts
  /-- A comma does not go on with a thing. -/
  comma_notMem : Symbol.comma ∉ marks
  /-- The list goes on in front of a thing. -/
  continues : ∀ ls, Starts firsts ls → stops ls = false
  /-- The list stops neither at a comma nor where a thing goes on. -/
  ends : ∀ ls, stops ls = true → NotBefore (Symbol.comma :: marks) ls

/-- A list starts like the things in it. -/
theorem DerivesList.starts {α : Type} {thing : List Lexeme → α → Prop} {firsts : List Symbol}
    (hthing : ∀ ls a, thing ls a → Starts firsts ls) {ls : List Lexeme} {as : List α}
    (h : DerivesList thing ls as) : Starts firsts ls := by
  cases h with
  | last ha hsep => exact (hthing _ _ ha).append _
  | cons ha hsep hrest => exact (hthing _ _ ha).append _

section List

variable {α : Type} {read : Reader α} {thing : List Lexeme → α → Prop}
  {firsts marks : List Symbol} {stops : List Lexeme → Bool}

theorem sound_readList (h : Listed unread read thing firsts marks stops)
    {consumes : Consumes read} {ls rest : List Lexeme} {as : List α}
    (has : readList unread read consumes stops ls = .ok (as, rest)) :
    stops rest = true ∧
      ∃ taken, ls = taken ++ rest ∧ DerivesList thing taken as ∧ MayEnd unread rest := by
  -- each call of the reader yields one of the things, so the induction is on these
  induction as generalizing ls with
  | nil =>
      rw [readList_eq] at has
      simp only [bind_eq_ok, Prod.exists] at has
      obtain ⟨a, ls₁, -, _, ls₂, -, has⟩ := has
      split at has
      · simp only [pure_eq_ok, Prod.mk.injEq, reduceCtorEq, false_and] at has
      · simp only [bind_eq_ok, pure_eq_ok, Prod.mk.injEq, reduceCtorEq, false_and, and_false,
          exists_false] at has
  | cons b bs ih =>
      rw [readList_eq] at has
      simp only [bind_eq_ok, Prod.exists] at has
      obtain ⟨a, ls₁, ha, _, ls₂, hcomma, has⟩ := has
      obtain ⟨taken, rfl, hderives, hend⟩ := h.reads.sound ha
      obtain ⟨sep, rfl, hsep, hend⟩ := sound_readOptional_comma hcomma hend
      split at has
      · rename_i hstops
        simp only [pure_eq_ok, Prod.mk.injEq, List.cons.injEq] at has
        obtain ⟨⟨rfl, rfl⟩, rfl⟩ := has
        exact ⟨hstops, taken ++ sep, by simp, DerivesList.last hderives hsep, hend⟩
      · simp only [bind_eq_ok, Prod.exists, pure_eq_ok, Prod.mk.injEq, List.cons.injEq] at has
        obtain ⟨as', rest', has', ⟨rfl, rfl⟩, rfl⟩ := has
        obtain ⟨hstops, taken', rfl, hderives', hend'⟩ := ih has'
        exact ⟨hstops, taken ++ (sep ++ taken'), by simp,
          DerivesList.cons hderives hsep hderives', hend'⟩

/-- One thing with its comma is read in front of the end of the list or of another thing. -/
theorem complete_thing (h : Listed unread read thing firsts marks stops)
    {ls sep rest : List Lexeme} {a : α} (ha : thing ls a) (hsep : OptionalComma sep)
    (hrest : NotBefore (.comma :: marks) rest) (hend : MayEnd unread rest) :
    read (ls ++ (sep ++ rest)) = .ok (a, sep ++ rest) ∧
      ∃ taken, readOptional unread .comma (sep ++ rest) = .ok (taken, rest) := by
  have hne : rest.head? ≠ some (.symbol .comma) := hrest .comma (List.mem_cons_self ..)
  have hmarks : NotBefore marks (sep ++ rest) ∧ MayEnd unread (sep ++ rest) := by
    cases hsep with
    | absent => exact ⟨hrest.mono (List.subset_cons_self _ _), hend⟩
    | comma =>
        refine ⟨fun s hs heq => h.comma_notMem ?_, mayEnd_cons _ _⟩
        cases heq
        exact hs
  exact ⟨h.reads.complete ha hmarks.1 hmarks.2, complete_readOptional_comma hsep hne hend⟩

theorem complete_readList (h : Listed unread read thing firsts marks stops)
    (consumes : Consumes read) {taken rest : List Lexeme} {as : List α}
    (has : DerivesList thing taken as)
    (hstops : stops rest = true) (hend : MayEnd unread rest) :
    readList unread read consumes stops (taken ++ rest) = .ok (as, rest) := by
  induction has with
  | @last ls sep a ha hsep =>
      obtain ⟨hread, b, hcomma⟩ := complete_thing h ha hsep (h.ends rest hstops) hend
      rw [List.append_assoc, readList_eq]
      refine bind_eq_ok.2 ⟨(a, _), hread, bind_eq_ok.2 ⟨(b, _), hcomma, ?_⟩⟩
      exact if_pos hstops
  | @cons ls sep ms a as ha hsep hrest ih =>
      -- the list goes on with another thing, which is neither a comma nor more of this one
      have hms : Starts firsts (ms ++ rest) := (hrest.starts h.starts).append rest
      have hmarks : NotBefore (.comma :: marks) (ms ++ rest) :=
        fun s hs => hms.head?_ne (h.disjoint s hs)
      obtain ⟨hread, b, hcomma⟩ := complete_thing h ha hsep hmarks fun _ => hms.ne_nil
      rw [List.append_assoc, List.append_assoc, readList_eq]
      refine bind_eq_ok.2 ⟨(a, _), hread, bind_eq_ok.2 ⟨(b, _), hcomma, ?_⟩⟩
      dsimp only
      rw [h.continues _ hms, if_neg Bool.false_ne_true]
      exact bind_eq_ok.2 ⟨(as, rest), ih, rfl⟩

/-- **Lists are read as they are derived**, up to where they stop. -/
theorem reads_readList (h : Listed unread read thing firsts marks stops)
    (consumes : Consumes read) :
    Reads unread (readList unread read consumes stops) (DerivesList thing)
      (fun rest => stops rest = true) where
  sound := fun has => (sound_readList h has).2
  complete := fun has hstops hend => complete_readList h consumes has hstops hend

end List

/-! ### Lists in brackets -/

theorem Starts.startsWith_eq_false {symbols : List Symbol} {ls : List Lexeme}
    (h : Starts symbols ls) {s : Symbol} (hs : s ∉ symbols) : startsWith s ls = false :=
  decide_eq_false (h.head?_ne hs)

/-- The list stops at a closing bracket, with which neither a thing nor the rest of one starts. -/
theorem Listed.bracketed {α : Type} {read : Reader α} {thing : List Lexeme → α → Prop}
    {firsts marks : List Symbol} {close : Symbol}
    (hreads : Reads unread read thing (NotBefore marks))
    (hstarts : ∀ (ls : List Lexeme) (a : α), thing ls a → Starts firsts ls)
    (hdisjoint : ∀ s ∈ Symbol.comma :: marks, s ∉ firsts) (hcomma : Symbol.comma ∉ marks)
    (hfirsts : close ∉ firsts) (hmarks : close ∉ Symbol.comma :: marks) :
    Listed unread read thing firsts marks (startsWith close) where
  reads := hreads
  starts := hstarts
  disjoint := hdisjoint
  comma_notMem := hcomma
  continues := fun ls h => h.startsWith_eq_false hfirsts
  ends := by
    intro ls h s hs heq
    have hclose : ls.head? = some (.symbol close) := of_decide_eq_true h
    rw [hclose] at heq
    cases heq
    exact hmarks hs

section Bracketed

variable {α : Type} {read : Reader α} {thing : List Lexeme → α → Prop}
  {firsts marks : List Symbol} {close : Symbol}

theorem sound_bracketed (h : Listed unread read thing firsts marks (startsWith close))
    {consumes : Consumes read} {ls ls' rest : List Lexeme} {as : List α}
    (has : readList unread read consumes (startsWith close) ls = .ok (as, ls'))
    (hclose : readSymbol unread close ls' = .ok rest) :
    ∃ taken, ls = taken ++ [.symbol close] ++ rest ∧ DerivesList thing taken as ∧
      MayEnd unread rest := by
  obtain ⟨taken, rfl, hderives, -⟩ := (reads_readList h _).sound has
  obtain ⟨rfl, hend⟩ := readSymbol_eq_ok_iff.1 hclose
  exact ⟨taken, by simp, hderives, hend⟩

theorem complete_bracketed (h : Listed unread read thing firsts marks (startsWith close))
    (consumes : Consumes read) {taken rest : List Lexeme} {as : List α}
    (has : DerivesList thing taken as)
    (hend : MayEnd unread rest) :
    readList unread read consumes (startsWith close) (taken ++ [.symbol close] ++ rest) =
        .ok (as, .symbol close :: rest) ∧
      readSymbol unread close (.symbol close :: rest) = .ok rest := by
  rw [List.append_assoc]
  exact ⟨(reads_readList h consumes).complete has (decide_eq_true rfl) (mayEnd_cons _ rest),
    readSymbol_eq_ok_iff.2 ⟨rfl, hend⟩⟩

end Bracketed

/-! ### Expressions -/

theorem listed_readDateArgument :
    Listed unread (readDateArgument unread) DerivesDateArgument [.wildcard, .not] argumentMarks
      (startsWith .closeParen) :=
  Listed.bracketed (reads_readArgument readsValues_date)
    (fun _ _ h => h.starts fun _ _ hv => hv.starts) (by decide) (by decide) (by decide) (by decide)

theorem listed_readDialArgument (d : Dial) :
    Listed unread (readDialArgument unread d) (DerivesDialArgument d) [.wildcard, .not]
      argumentMarks (startsWith .closeParen) :=
  Listed.bracketed (reads_readArgument (readsValues_dial d))
    (fun _ _ h => h.starts fun _ _ hv => hv.starts) (by decide) (by decide) (by decide) (by decide)

theorem sound_readArguments {kind : Kind} {word : List Char} (hname : kind.Named word)
    {ls rest : List Lexeme} {e : Expression}
    (h : readArguments unread kind ls = .ok (e, rest)) :
    ∃ taken, ls = taken ++ rest ∧ DerivesExpression (.word word :: taken) e ∧
      MayEnd unread rest := by
  unfold readArguments at h
  simp only [bind_eq_ok] at h
  obtain ⟨ls₁, hopen, h⟩ := h
  obtain ⟨rfl, -⟩ := readSymbol_eq_ok_iff.1 hopen
  cases kind with
  | dates =>
      simp only [bind_eq_ok, Prod.exists, pure_eq_ok, Prod.mk.injEq] at h
      obtain ⟨as, ls₂, has, ls₃, hclose, rfl, rfl⟩ := h
      obtain ⟨taken, rfl, hderives, hend⟩ := sound_bracketed listed_readDateArgument has hclose
      exact ⟨_, rfl, DerivesExpression.dates hname hderives, hend⟩
  | dial d =>
      simp only [bind_eq_ok, Prod.exists, pure_eq_ok, Prod.mk.injEq] at h
      obtain ⟨as, ls₂, has, ls₃, hclose, rfl, rfl⟩ := h
      obtain ⟨taken, rfl, hderives, hend⟩ := sound_bracketed (listed_readDialArgument d) has hclose
      exact ⟨_, rfl, DerivesExpression.dial hname hderives, hend⟩

theorem complete_readArguments {taken rest : List Lexeme} {e : Expression}
    (h : DerivesExpression taken e) (hend : MayEnd unread rest) :
    ∃ kind word ls, kind.Named word ∧ taken = .word word :: .symbol .openParen :: ls ∧
      readArguments unread kind (.symbol .openParen :: (ls ++ rest)) = .ok (e, rest) := by
  cases h with
  | @dates word ls as hname has =>
      obtain ⟨hlist, hclose⟩ :=
        complete_bracketed listed_readDateArgument (consumes_readDateArgument unread) has hend
      refine ⟨.dates, word, _, hname, rfl, ?_⟩
      refine bind_eq_ok.2 ⟨_, readSymbol_eq_ok_iff.2 ⟨rfl, fun _ => by simp⟩, ?_⟩
      exact bind_eq_ok.2 ⟨(as, _), hlist, bind_eq_ok.2 ⟨rest, hclose, rfl⟩⟩
  | @dial d word ls as hname has =>
      obtain ⟨hlist, hclose⟩ :=
        complete_bracketed (listed_readDialArgument d) (consumes_readDialArgument unread d) has hend
      refine ⟨.dial d, word, _, hname, rfl, ?_⟩
      refine bind_eq_ok.2 ⟨_, readSymbol_eq_ok_iff.2 ⟨rfl, fun _ => by simp⟩, ?_⟩
      exact bind_eq_ok.2 ⟨(as, _), hlist, bind_eq_ok.2 ⟨rest, hclose, rfl⟩⟩

/-- **Expressions are read as they are derived**, whatever follows. -/
theorem reads_readExpression :
    Reads unread (readExpression unread) DerivesExpression (NotBefore []) where
  sound := by
    intro ls rest e h
    unfold readExpression at h
    simp only [bind_eq_ok, Prod.exists] at h
    obtain ⟨word, ls₁, hword, h⟩ := h
    obtain ⟨rfl, -⟩ := readWord_eq_ok_iff.1 hword
    split at h
    · simp at h
    · rename_i kind hkind
      obtain ⟨taken, rfl, hderives, hend⟩ :=
        sound_readArguments (Kind.ofName?_eq_some_iff.1 hkind) h
      exact ⟨.word word :: taken, rfl, hderives, hend⟩
  complete := by
    intro taken rest e h _ hend
    obtain ⟨kind, word, ls, hname, rfl, hread⟩ := complete_readArguments h hend
    refine bind_eq_ok.2 ⟨(word, _), readWord_eq_ok_iff.2 ⟨rfl, mayEnd_cons _ _⟩, ?_⟩
    dsimp only
    rw [Kind.ofName?_eq_some_iff.2 hname]
    exact hread

/-! ### Items and schedules -/

theorem listed_readExpression :
    Listed unread (readExpression unread) DerivesExpression [] [] (startsWith .closeBrace) :=
  Listed.bracketed reads_readExpression (fun _ _ h => h.starts) (by decide) (by decide) (by decide)
    (by decide)

theorem sound_readBraced {ls rest : List Lexeme} {es : List Expression}
    (h : readBraced unread ls = .ok (es, rest)) :
    ∃ taken, ls = taken ++ rest ∧ DerivesItem taken (.braced es) ∧ MayEnd unread rest := by
  unfold readBraced at h
  simp only [bind_eq_ok] at h
  obtain ⟨ls₁, hopen, h⟩ := h
  obtain ⟨rfl, -⟩ := readSymbol_eq_ok_iff.1 hopen
  split at h
  · simp at h
  · simp only [bind_eq_ok, Prod.exists, pure_eq_ok, Prod.mk.injEq] at h
    obtain ⟨es', ls₂, hes, ls₃, hclose, rfl, rfl⟩ := h
    obtain ⟨taken, rfl, hderives, hend⟩ := sound_bracketed listed_readExpression hes hclose
    exact ⟨_, rfl, DerivesItem.braced hderives, hend⟩

theorem complete_readBraced {ls rest : List Lexeme} {es : List Expression}
    (h : DerivesList DerivesExpression ls es) (hend : MayEnd unread rest) :
    readBraced unread (.symbol .openBrace :: (ls ++ [.symbol .closeBrace] ++ rest)) =
      .ok (es, rest) := by
  obtain ⟨hlist, hclose⟩ :=
    complete_bracketed listed_readExpression (consumes_readExpression unread) h hend
  -- a list of expressions starts with a word, so the braces do not seem to be empty
  have hstart : Starts [] (ls ++ [.symbol .closeBrace] ++ rest) :=
    ((h.starts fun _ _ he => he.starts).append _).append rest
  have hnonempty := hstart.startsWith_eq_false (s := .closeBrace) List.not_mem_nil
  refine bind_eq_ok.2 ⟨_, readSymbol_eq_ok_iff.2 ⟨rfl, fun _ => hstart.ne_nil⟩, ?_⟩
  rw [hnonempty, if_neg Bool.false_ne_true]
  exact bind_eq_ok.2 ⟨(es, _), hlist, bind_eq_ok.2 ⟨rest, hclose, rfl⟩⟩

/-- **Items are read as they are derived**, whatever follows. -/
theorem reads_readItem : Reads unread (readItem unread) DerivesItem (NotBefore []) where
  sound := by
    intro ls rest i h
    unfold readItem at h
    split at h
    · simp only [bind_eq_ok, Prod.exists, pure_eq_ok, Prod.mk.injEq] at h
      obtain ⟨es, rest', hes, rfl, rfl⟩ := h
      exact sound_readBraced hes
    · simp only [bind_eq_ok, Prod.exists, pure_eq_ok, Prod.mk.injEq] at h
      obtain ⟨e, rest', he, rfl, rfl⟩ := h
      obtain ⟨taken, hls, hderives, hend⟩ := reads_readExpression.sound he
      exact ⟨taken, hls, DerivesItem.loose hderives, hend⟩
    · simp at h
  complete := by
    intro taken rest i h hfollows hend
    cases h with
    | @braced ls es hes => exact bind_eq_ok.2 ⟨(es, rest), complete_readBraced hes hend, rfl⟩
    | loose he =>
        have hread := reads_readExpression.complete he hfollows hend
        cases he <;> exact bind_eq_ok.2 ⟨(_, rest), hread, rfl⟩

theorem listed_readItem :
    Listed unread (readItem unread) DerivesItem [.openBrace] [] List.isEmpty where
  reads := reads_readItem
  starts := fun _ _ h => h.starts
  disjoint := by decide
  comma_notMem := by decide
  continues := by
    intro ls h
    rw [List.isEmpty_eq_false_iff]
    exact h.ne_nil
  ends := by
    intro ls h
    rw [List.isEmpty_iff.1 h]
    exact fun s _ => Option.some_ne_none _ ∘ Eq.symm

/-- **A schedule is read exactly from the lexemes that derive it**, and from a text that could be
read to its end. -/
theorem Program.read_eq_ok_iff {ls : List Lexeme} {p : Program} :
    Program.read unread ls = .ok p ↔ unread = none ∧ DerivesProgram ls p := by
  cases ls with
  | nil =>
      constructor
      · intro h
        cases unread <;> cases h
      · rintro ⟨-, h⟩
        exact absurd rfl (h.starts fun _ _ h => h.starts).ne_nil
  | cons l ls =>
      unfold Program.read
      simp only [bind_eq_ok, Prod.exists, pure_eq_ok]
      constructor
      · rintro ⟨items, rest, hitems, rfl⟩
        -- items are read until no lexeme is left, which is not in front of an unreadable character
        obtain ⟨hempty, taken, hls, hderives, hend⟩ := sound_readList listed_readItem hitems
        rw [List.isEmpty_iff.1 hempty, List.append_nil] at hls
        rw [hls]
        exact ⟨not_not.1 fun hsome => hend hsome (List.isEmpty_iff.1 hempty), hderives⟩
      · rintro ⟨rfl, h⟩
        have hread :=
          complete_readList listed_readItem (consumes_readItem none) h rfl (mayEnd_none [])
        rw [List.append_nil] at hread
        exact ⟨p, [], hread, rfl⟩

end Timetable

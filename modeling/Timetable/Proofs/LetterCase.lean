/-
**Reading does not depend on letter case.**

Words are looked up in lower case and taken for nothing else, so two lists of lexemes that differ
only in the case of their words are read alike: to the same value, or to faults at the same place
whose causes differ only in the case of a name.  A reader that has this property is blind to case.
Readers are sequences of smaller ones, so it is proved for those that take a single lexeme and
composed along the grammar; a list is followed by induction on what is left of it.

Main definitions:

* `Lexeme.Alike`, `Fault.Alike` — lexemes and faults that differ only in case;
* `Agree` — two outcomes with related values or with faults that are alike;
* `CaseBlind` — **the reader takes lexemes that are alike for the same**.

Main results:

* `Agree.bind`, `Agree.bind_reading` — outcomes that agree still do after steps that keep the
  relation;
* `caseBlind_readArgument`, `caseBlind_readList` — arguments and lists of things read blind to case;
* `Program.agree_read` — **a schedule is read from its lexemes whatever their case**.
-/

import Mathlib.Data.List.Forall2
import Timetable.Program.Reader

set_option relaxedAutoImplicit false
set_option autoImplicit false

namespace Timetable

/-! ### Lexemes and faults that differ in case -/

/-- The lexemes differ at most in the case of the letters of a word. -/
inductive Lexeme.Alike : Lexeme → Lexeme → Prop
  | symbol (s : Symbol) : Alike (.symbol s) (.symbol s)
  | word {letters letters' : List Char} (h : foldCase letters = foldCase letters') :
      Alike (.word letters) (.word letters')
  | integer (n : Numeral) : Alike (.integer n) (.integer n)

/-- The lists have lexemes that are alike at the same places. -/
abbrev AlikeLexemes : List Lexeme → List Lexeme → Prop := List.Forall₂ Lexeme.Alike

/-- The cause with the name in it, if there is one, in lower case. -/
def Cause.folded : Cause → Cause
  | .unknownKind name => .unknownKind (foldCase name)
  | .unknownDay name => .unknownDay (foldCase name)
  | cause => cause

/-- The faults are at the same place, and their causes differ at most in the case of a name. -/
def Fault.Alike (f f' : Fault) : Prop := f.cause.folded = f'.cause.folded ∧ f.left = f'.left

theorem Lexeme.Alike.form_eq {l l' : Lexeme} (h : l.Alike l') : l.form = l'.form := by
  cases h <;> rfl

theorem Lexeme.Alike.eq_symbol_iff {l l' : Lexeme} (h : l.Alike l') (s : Symbol) :
    l = .symbol s ↔ l' = .symbol s := by
  cases h with
  | symbol s' => exact Iff.rfl
  | word _ => exact ⟨nofun, nofun⟩
  | integer n => exact Iff.rfl

/-- Only the cause that there is no expression is that cause in lower case. -/
theorem Cause.folded_eq_noExpression_iff {cause : Cause} :
    cause.folded = .noExpression ↔ cause = .noExpression := by
  cases cause <;> simp [folded]

namespace AlikeLexemes

variable {ls ls' : List Lexeme}

theorem head?_form (h : AlikeLexemes ls ls') :
    ls.head?.map Lexeme.form = ls'.head?.map Lexeme.form := by
  cases h with
  | nil => rfl
  | cons hl _ => exact congrArg some hl.form_eq

theorem head?_eq_symbol_iff (h : AlikeLexemes ls ls') (s : Symbol) :
    ls.head? = some (.symbol s) ↔ ls'.head? = some (.symbol s) := by
  cases h with
  | nil => exact Iff.rfl
  | cons hl _ => simpa using hl.eq_symbol_iff s

theorem isEmpty_eq (h : AlikeLexemes ls ls') : ls.isEmpty = ls'.isEmpty := by
  cases h <;> rfl

theorem startsWith_eq (s : Symbol) (h : AlikeLexemes ls ls') :
    startsWith s ls = startsWith s ls' :=
  decide_eq_decide.2 (h.head?_eq_symbol_iff s)

end AlikeLexemes

/-! ### Outcomes that agree -/

/-- Both outcomes are values, which are related, or both are faults, which are alike. -/
def Agree {α β : Type} (R : α → β → Prop) : Except Fault α → Except Fault β → Prop
  | .ok a, .ok b => R a b
  | .error f, .error f' => f.Alike f'
  | _, _ => False

section Agree

variable {α β γ δ : Type} {R : α → β → Prop} {S : γ → δ → Prop}

/-- Two runs that agree up to a step still do behind it, if the step keeps them related. -/
theorem Agree.bind {x : Except Fault α} {y : Except Fault β} {f : α → Except Fault γ}
    {g : β → Except Fault δ} (h : Agree R x y)
    (hstep : ∀ a b, x = .ok a → R a b → Agree S (f a) (g b)) : Agree S (x >>= f) (y >>= g) := by
  cases x with
  | error fault =>
      cases y with
      | error fault' => exact h
      | ok b => exact h.elim
  | ok a =>
      cases y with
      | error fault' => exact h.elim
      | ok b => exact hstep a b rfl h

theorem agree_pure {a : α} {b : β} (h : R a b) :
    Agree R (pure a : Except Fault α) (pure b : Except Fault β) := h

/-- Faults at lexemes that are alike are alike, if their causes are. -/
theorem agree_faultAt {cause cause' : Cause} (hcause : cause.folded = cause'.folded)
    {ls ls' : List Lexeme} (h : AlikeLexemes ls ls') :
    Agree R (faultAt cause ls) (faultAt cause' ls') :=
  ⟨hcause, h.length_eq⟩

theorem agree_unexpectedAt (expected : List Form) {ls ls' : List Lexeme}
    (h : AlikeLexemes ls ls') :
    Agree R (unexpectedAt expected ls) (unexpectedAt expected ls') :=
  agree_faultAt (by rw [h.head?_form]) h

end Agree

/-- The readings are of one value and leave lexemes that are alike. -/
def SameReading {α : Type} (p p' : α × List Lexeme) : Prop := p.1 = p'.1 ∧ AlikeLexemes p.2 p'.2

/-- **The reader takes lexemes that are alike for the same.** -/
def CaseBlind {α : Type} (read : Reader α) : Prop :=
  ∀ ⦃ls ls' : List Lexeme⦄, AlikeLexemes ls ls' → Agree SameReading (read ls) (read ls')

section Bind

variable {α γ δ : Type} {S : γ → δ → Prop}

/-- Going on with the value and the lexemes that two readings agree on. -/
theorem Agree.bind_reading {x y : Except Fault (α × List Lexeme)}
    {f : α × List Lexeme → Except Fault γ} {g : α × List Lexeme → Except Fault δ}
    (h : Agree SameReading x y)
    (hstep : ∀ a ls ls', x = .ok (a, ls) → AlikeLexemes ls ls' → Agree S (f (a, ls)) (g (a, ls'))) :
    Agree S (x >>= f) (y >>= g) := by
  refine h.bind fun p p' hx hp => ?_
  obtain ⟨a, ls⟩ := p
  obtain ⟨a', ls'⟩ := p'
  obtain ⟨rfl, hls⟩ := hp
  exact hstep a ls ls' hx hls

/-- Going on with the value of two checks. -/
theorem Agree.bind_eq {x y : Except Fault α} {f : α → Except Fault γ} {g : α → Except Fault δ}
    (h : Agree Eq x y) (hstep : ∀ a, Agree S (f a) (g a)) : Agree S (x >>= f) (y >>= g) := by
  refine h.bind fun a a' _ ha => ?_
  rw [ha]
  exact hstep a'

end Bind

/-! ### Single lexemes -/

section Single

variable {unread : Option (List Char)} {ls ls' : List Lexeme}

theorem agree_afterFirst (h : AlikeLexemes ls ls') :
    Agree AlikeLexemes (afterFirst unread ls) (afterFirst unread ls') := by
  cases h with
  | nil => exact List.Forall₂.nil
  | cons hl hrest =>
      cases hrest with
      | cons hm hrest => exact List.Forall₂.cons hm hrest
      | nil =>
          cases unread with
          | none => exact List.Forall₂.nil
          | some text => exact agree_faultAt rfl List.Forall₂.nil

/-- Taking the first lexeme and yielding a value that is known already. -/
theorem agree_afterFirst_bind {α β : Type} {R : α → β → Prop} {a : α} {b : β} (hab : R a b)
    (h : AlikeLexemes ls ls') :
    Agree (fun p p' => R p.1 p'.1 ∧ AlikeLexemes p.2 p'.2)
      (do return (a, ← afterFirst unread ls)) (do return (b, ← afterFirst unread ls')) :=
  (agree_afterFirst h).bind fun _ _ _ hrest => agree_pure ⟨hab, hrest⟩

theorem agree_readSymbol (s : Symbol) (h : AlikeLexemes ls ls') :
    Agree AlikeLexemes (readSymbol unread s ls) (readSymbol unread s ls') := by
  unfold readSymbol
  by_cases hs : ls.head? = some (.symbol s)
  · rw [if_pos hs, if_pos ((h.head?_eq_symbol_iff s).1 hs)]
    exact agree_afterFirst h
  · rw [if_neg hs, if_neg (mt (h.head?_eq_symbol_iff s).2 hs)]
    exact agree_unexpectedAt _ h

theorem caseBlind_readOptional (s : Symbol) : CaseBlind (readOptional unread s) := by
  intro ls ls' h
  unfold readOptional
  by_cases hs : ls.head? = some (.symbol s)
  · rw [if_pos hs, if_pos ((h.head?_eq_symbol_iff s).1 hs)]
    exact agree_afterFirst_bind rfl h
  · rw [if_neg hs, if_neg (mt (h.head?_eq_symbol_iff s).2 hs)]
    exact agree_pure ⟨rfl, h⟩

/-- Of a word its letters are read up to their case. -/
theorem agree_readWord (h : AlikeLexemes ls ls') :
    Agree (fun p p' => foldCase p.1 = foldCase p'.1 ∧ AlikeLexemes p.2 p'.2)
      (readWord unread ls) (readWord unread ls') := by
  cases h with
  | nil => exact agree_unexpectedAt _ List.Forall₂.nil
  | cons hl hrest =>
      have hall := List.Forall₂.cons hl hrest
      cases hl with
      | word hletters =>
          exact agree_afterFirst_bind (R := fun a b => foldCase a = foldCase b) hletters hall
      | symbol s => exact agree_unexpectedAt _ hall
      | integer n => exact agree_unexpectedAt _ hall

theorem caseBlind_readNumeral : CaseBlind (readNumeral unread) := by
  intro ls ls' h
  cases h with
  | nil => exact agree_unexpectedAt _ List.Forall₂.nil
  | cons hl hrest =>
      have hall := List.Forall₂.cons hl hrest
      cases hl with
      | integer n => exact agree_afterFirst_bind rfl hall
      | symbol s => exact agree_unexpectedAt _ hall
      | word hletters => exact agree_unexpectedAt _ hall

end Single

/-! ### Values -/

section Value

variable {unread : Option (List Char)} {ls ls' : List Lexeme}

theorem agree_valueOf (n : Numeral) (h : AlikeLexemes ls ls') :
    Agree Eq (valueOf n ls) (valueOf n ls') := by
  unfold valueOf
  split
  · exact agree_pure rfl
  · exact agree_faultAt rfl h

theorem caseBlind_readInterval : CaseBlind (readInterval unread) := by
  intro ls ls' h
  refine (caseBlind_readNumeral h).bind_reading fun n rest rest' _ hrest => ?_
  refine (agree_valueOf n h).bind_eq fun v => ?_
  split
  · exact agree_faultAt rfl h
  · split
    · exact agree_faultAt rfl h
    · exact agree_pure ⟨rfl, hrest⟩

/-- The names of the days are in lower case, and so are the words they are compared with. -/
theorem dayOfWeek?_eq_of_foldCase {word word' : List Char} (h : foldCase word = foldCase word') :
    dayOfWeek? word = dayOfWeek? word' := by
  unfold dayOfWeek?
  rw [h]

theorem caseBlind_readDialValue (d : Dial) : CaseBlind (readDialValue unread d) := by
  intro ls ls' h
  cases h with
  | nil => exact agree_unexpectedAt _ List.Forall₂.nil
  | cons hl hrest =>
      have hall := List.Forall₂.cons hl hrest
      cases hl with
      | symbol s => exact agree_unexpectedAt _ hall
      | integer n =>
          refine (agree_afterFirst hall).bind fun rest rest' _ hrest => ?_
          refine (agree_valueOf n hall).bind_eq fun v => ?_
          split
          · exact agree_pure ⟨rfl, hrest⟩
          · exact agree_faultAt rfl hall
      | @word letters letters' hletters =>
          simp only [readDialValue]
          split
          · refine (agree_afterFirst hall).bind fun rest rest' _ hrest => ?_
            rw [dayOfWeek?_eq_of_foldCase hletters]
            cases dayOfWeek? letters' with
            | some n => exact agree_pure ⟨rfl, hrest⟩
            | none =>
                have hcause : (Cause.unknownDay letters).folded =
                    (Cause.unknownDay letters').folded := congrArg Cause.unknownDay hletters
                exact agree_faultAt hcause hall
          · exact agree_unexpectedAt _ hall

theorem agree_dateOf (year : Option Int) (month day : Int) (h : AlikeLexemes ls ls') :
    Agree Eq (dateOf year month day ls) (dateOf year month day ls') := by
  unfold dateOf
  split
  · exact agree_faultAt rfl h
  · dsimp only
    split
    · exact agree_faultAt rfl h
    · split
      · exact agree_faultAt rfl h
      · exact agree_pure rfl

theorem caseBlind_readDate : CaseBlind (readDate unread) := by
  intro ls ls' h
  refine (caseBlind_readNumeral h).bind_reading fun a ls₁ ls₁' _ h₁ => ?_
  refine (agree_readSymbol .slash h₁).bind fun ls₂ ls₂' _ h₂ => ?_
  refine (caseBlind_readNumeral h₂).bind_reading fun b ls₃ ls₃' _ h₃ => ?_
  refine (caseBlind_readOptional .slash h₃).bind_reading fun more ls₄ ls₄' _ h₄ => ?_
  cases more with
  | true =>
      refine (caseBlind_readNumeral h₄).bind_reading fun c rest rest' _ hrest => ?_
      refine (agree_valueOf a h).bind_eq fun year => ?_
      refine (agree_valueOf b h₂).bind_eq fun month => ?_
      refine (agree_valueOf c h₄).bind_eq fun day => ?_
      exact (agree_dateOf _ month day h).bind fun _ _ _ hdate => agree_pure ⟨hdate, hrest⟩
  | false =>
      refine (agree_valueOf a h).bind_eq fun month => ?_
      refine (agree_valueOf b h₂).bind_eq fun day => ?_
      exact (agree_dateOf _ month day h).bind fun _ _ _ hdate => agree_pure ⟨hdate, h₄⟩

end Value

/-! ### Arguments -/

section Argument

variable {unread : Option (List Char)}

theorem caseBlind_readRangeMark : CaseBlind (readRangeMark unread) := by
  intro ls ls' h
  cases h with
  | nil => exact agree_pure ⟨rfl, List.Forall₂.nil⟩
  | cons hl hrest =>
      have hall := List.Forall₂.cons hl hrest
      cases hl with
      | word hletters => exact agree_pure ⟨rfl, hall⟩
      | integer n => exact agree_pure ⟨rfl, hall⟩
      | symbol s =>
          cases s with
          | rangeInclusive => exact agree_afterFirst_bind rfl hall
          | rangeHalfOpen => exact agree_afterFirst_bind rfl hall
          | _ => exact agree_pure ⟨rfl, hall⟩

theorem caseBlind_readOptionalInterval : CaseBlind (readOptionalInterval unread) := by
  intro ls ls' h
  refine (caseBlind_readOptional .interval h).bind_reading fun marked ls₁ ls₁' _ h₁ => ?_
  cases marked with
  | true =>
      refine (caseBlind_readInterval h₁).bind_reading fun n rest rest' _ hrest => ?_
      exact agree_pure ⟨rfl, hrest⟩
  | false => exact agree_pure ⟨rfl, h₁⟩

variable {α : Type} [DecidableEq α] {readValue : Reader α} {endsFault? : α → α → Option Cause}

theorem caseBlind_readExtent (hvalue : CaseBlind readValue) :
    CaseBlind (readExtent unread readValue endsFault?) := by
  intro ls ls' h
  refine (hvalue h).bind_reading fun start ls₁ ls₁' _ h₁ => ?_
  refine (caseBlind_readRangeMark h₁).bind_reading fun mark ls₂ ls₂' _ h₂ => ?_
  cases mark with
  | none => exact agree_pure ⟨rfl, h₂⟩
  | some halfOpen =>
      refine (hvalue h₂).bind_reading fun stop rest rest' _ hrest => ?_
      dsimp only
      -- what is wrong with the ends is placed at the first of them
      split
      · exact agree_faultAt rfl h
      · split
        · exact agree_faultAt rfl h
        · exact agree_pure ⟨rfl, hrest⟩

theorem caseBlind_readWildcardOrExtent (hvalue : CaseBlind readValue) :
    CaseBlind (readWildcardOrExtent unread readValue endsFault?) := by
  intro ls ls' h
  refine (caseBlind_readOptional .wildcard h).bind_reading fun wildcard rest rest' _ hrest => ?_
  cases wildcard with
  | true => exact agree_pure ⟨rfl, hrest⟩
  | false => exact caseBlind_readExtent hvalue hrest

/-- **An argument is read blind to case** if its values are. -/
theorem caseBlind_readArgument (hvalue : CaseBlind readValue) :
    CaseBlind (readArgument unread readValue endsFault?) := by
  intro ls ls' h
  refine (caseBlind_readOptional .not h).bind_reading fun excluded ls₁ ls₁' _ h₁ => ?_
  refine (caseBlind_readWildcardOrExtent hvalue h₁).bind_reading fun extent ls₂ ls₂' _ h₂ => ?_
  refine (caseBlind_readOptionalInterval h₂).bind_reading fun interval rest rest' _ hrest => ?_
  dsimp only
  split
  · exact agree_faultAt rfl h
  · exact agree_pure ⟨rfl, hrest⟩

theorem caseBlind_readDateArgument : CaseBlind (readDateArgument unread) :=
  caseBlind_readArgument caseBlind_readDate

theorem caseBlind_readDialArgument (d : Dial) : CaseBlind (readDialArgument unread d) :=
  caseBlind_readArgument (caseBlind_readDialValue d)

end Argument

/-! ### Lists -/

section List

variable {unread : Option (List Char)}

/-- **A list is read blind to case** if its things are and case does not tell where it stops. -/
theorem caseBlind_readList {α : Type} {read : Reader α} (hread : CaseBlind read)
    {consumes : Consumes read} {stops : List Lexeme → Bool}
    (hstops : ∀ ls ls', AlikeLexemes ls ls' → stops ls = stops ls') :
    CaseBlind (readList unread read consumes stops) := by
  intro ls
  -- a thing takes something, so the induction is on how many lexemes are left
  induction hn : ls.length using Nat.strongRecOn generalizing ls with
  | ind n ih =>
      intro ls' h
      rw [readList_eq, readList_eq]
      refine (hread h).bind_reading fun a ls₁ ls₁' hfirst h₁ => ?_
      refine (caseBlind_readOptional .comma h₁).bind_reading fun comma ls₂ ls₂' hcomma h₂ => ?_
      have hlt : ls₂.length < n :=
        hn ▸ Nat.lt_of_le_of_lt (readOptional_length unread hcomma) (consumes hfirst)
      dsimp only
      rw [hstops ls₂ ls₂' h₂]
      split
      · exact agree_pure ⟨rfl, h₂⟩
      · refine Agree.bind_reading (ih ls₂.length hlt rfl h₂) fun as rest rest' _ hrest => ?_
        exact agree_pure ⟨rfl, hrest⟩

/-- A list up to a closing bracket, with the bracket. -/
theorem agree_bracketed {α β : Type} {read : Reader α} (hread : CaseBlind read)
    {consumes : Consumes read} (close : Symbol) (build : List α → β) {ls ls' : List Lexeme}
    (h : AlikeLexemes ls ls') :
    Agree SameReading
      (do let (as, rest) ← readList unread read consumes (startsWith close) ls
          return (build as, ← readSymbol unread close rest))
      (do let (as, rest) ← readList unread read consumes (startsWith close) ls'
          return (build as, ← readSymbol unread close rest)) := by
  have hlist : CaseBlind (readList unread read consumes (startsWith close)) :=
    caseBlind_readList hread fun _ _ => AlikeLexemes.startsWith_eq close
  refine (hlist h).bind_reading fun as rest rest' _ hrest => ?_
  exact (agree_readSymbol close hrest).bind fun _ _ _ hrest => agree_pure ⟨rfl, hrest⟩

end List

/-! ### Expressions and items -/

section Item

variable {unread : Option (List Char)}

theorem caseBlind_readArguments (kind : Kind) : CaseBlind (readArguments unread kind) := by
  intro ls ls' h
  refine (agree_readSymbol .openParen h).bind fun ls₁ ls₁' _ h₁ => ?_
  cases kind with
  | dates => exact agree_bracketed caseBlind_readDateArgument _ Expression.dates h₁
  | dial d => exact agree_bracketed (caseBlind_readDialArgument d) _ (Expression.dial d) h₁

/-- The names of the kinds are in lower case, and so are the words they are compared with. -/
theorem Kind.ofName?_eq_of_foldCase {word word' : List Char} (h : foldCase word = foldCase word') :
    Kind.ofName? word = Kind.ofName? word' := by
  unfold Kind.ofName?
  rw [h]

theorem caseBlind_readExpression : CaseBlind (readExpression unread) := by
  intro ls ls' h
  refine (agree_readWord h).bind fun p p' _ hp => ?_
  obtain ⟨name, ls₁⟩ := p
  obtain ⟨name', ls₁'⟩ := p'
  obtain ⟨hname, h₁⟩ := hp
  dsimp only at hname ⊢
  rw [Kind.ofName?_eq_of_foldCase hname]
  cases Kind.ofName? name' with
  | none =>
      have hcause : (Cause.unknownKind name).folded = (Cause.unknownKind name').folded :=
        congrArg Cause.unknownKind hname
      exact agree_faultAt hcause h
  | some kind => exact caseBlind_readArguments kind h₁

theorem caseBlind_readBraced : CaseBlind (readBraced unread) := by
  intro ls ls' h
  refine (agree_readSymbol .openBrace h).bind fun ls₁ ls₁' _ h₁ => ?_
  rw [h₁.startsWith_eq .closeBrace]
  split
  · exact agree_faultAt rfl h₁
  · exact agree_bracketed caseBlind_readExpression .closeBrace id h₁

theorem caseBlind_readItem : CaseBlind (readItem unread) := by
  intro ls ls' h
  cases h with
  | nil => exact agree_unexpectedAt _ List.Forall₂.nil
  | cons hl hrest =>
      have hall := List.Forall₂.cons hl hrest
      cases hl with
      | integer n => exact agree_unexpectedAt _ hall
      | word hletters =>
          refine (caseBlind_readExpression hall).bind_reading fun e rest rest' _ hrest => ?_
          exact agree_pure ⟨rfl, hrest⟩
      | symbol s =>
          cases s with
          | openBrace =>
              refine (caseBlind_readBraced hall).bind_reading fun es rest rest' _ hrest => ?_
              exact agree_pure ⟨rfl, hrest⟩
          | _ => exact agree_unexpectedAt _ hall

end Item

/-! ### Schedules -/

/-- **A schedule is read from its lexemes whatever their case**: to the same items, or to faults
that are alike. -/
theorem Program.agree_read {unread : Option (List Char)} {ls ls' : List Lexeme}
    (h : AlikeLexemes ls ls') :
    Agree Eq (Program.read unread ls) (Program.read unread ls') := by
  cases h with
  | nil =>
      cases unread with
      | none => exact agree_faultAt rfl List.Forall₂.nil
      | some text => exact agree_faultAt rfl List.Forall₂.nil
  | cons hl hrest =>
      have hblind : CaseBlind (readList unread (readItem unread) (consumes_readItem unread)
          List.isEmpty) :=
        caseBlind_readList caseBlind_readItem fun _ _ => AlikeLexemes.isEmpty_eq
      exact (hblind (List.Forall₂.cons hl hrest)).bind fun _ _ _ hitems => agree_pure hitems.1

end Timetable

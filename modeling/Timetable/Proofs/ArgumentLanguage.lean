/-
**Arguments are read as the grammar derives them.**

A reader is sound for a rule of the grammar if the lexemes it takes derive the value it yields, and
complete if it takes any lexemes that derive a value and yields that value, provided that what
follows does not look like more of the same.  Both are proved for each reader of values and, for any
sort of value, composed into the reader of arguments.

If a text cannot be read to its end, taking the last lexeme before the unreadable character fails.
So a reader that succeeds leaves something there, which is part of soundness.

Main definitions:

* `MayEnd` — the lexemes left are not none in front of an unreadable character;
* `Reads` — **the reader is sound and complete for a rule**, given what may follow;
* `NotBefore` — what is left does not start with one of some symbols;
* `ReadsValues` — all that reading an argument has to know about its values.

Main results:

* `reads_readDate`, `reads_readDialValue` — values;
* `reads_readWildcardOrExtent`, `reads_readArgument` — **arguments**, for any sort of value;
* `readsValues_date`, `readsValues_dial` — both sorts of value qualify.
-/

import Mathlib.Logic.Basic
import Timetable.Proofs.Grammar
import Timetable.Program.Reader.Argument

set_option relaxedAutoImplicit false
set_option autoImplicit false

namespace Timetable

variable {unread : Option (List Char)}

/-! ### Taking single lexemes -/

/-- Reading may stop with these lexemes left: where the text goes on unread there are some. -/
def MayEnd (unread : Option (List Char)) (rest : List Lexeme) : Prop := unread ≠ none → rest ≠ []

theorem mayEnd_cons (l : Lexeme) (rest : List Lexeme) : MayEnd unread (l :: rest) :=
  fun _ => List.cons_ne_nil l rest

theorem mayEnd_none (rest : List Lexeme) : MayEnd none rest := fun h => absurd rfl h

theorem afterFirst_cons_eq_ok_iff {l : Lexeme} {ls rest : List Lexeme} :
    afterFirst unread (l :: ls) = .ok rest ↔ ls = rest ∧ MayEnd unread rest := by
  cases ls with
  | cons m ls =>
      constructor
      · intro h; cases h; exact ⟨rfl, mayEnd_cons m ls⟩
      · rintro ⟨rfl, -⟩; rfl
  | nil =>
      cases unread with
      | none =>
          constructor
          · intro h; cases h; exact ⟨rfl, mayEnd_none []⟩
          · rintro ⟨rfl, -⟩; rfl
      | some text =>
          constructor
          · intro h; cases h
          · rintro ⟨rfl, h⟩; exact absurd rfl (h (Option.some_ne_none text))

/-- Taking the first lexeme and yielding a value that is known already. -/
theorem afterFirst_bind_eq_ok_iff {α : Type} {a b : α} {l : Lexeme} {ls rest : List Lexeme} :
    (do return (a, ← afterFirst unread (l :: ls)) : Except Fault (α × List Lexeme)) =
        .ok (b, rest) ↔
      a = b ∧ ls = rest ∧ MayEnd unread rest := by
  simp only [bind_eq_ok, pure_eq_ok, afterFirst_cons_eq_ok_iff, Prod.mk.injEq]
  constructor
  · intro h
    obtain ⟨ls', ⟨rfl, hend⟩, rfl, rfl⟩ := h
    exact ⟨rfl, rfl, hend⟩
  · intro h
    obtain ⟨rfl, rfl, hend⟩ := h
    exact ⟨ls, ⟨rfl, hend⟩, rfl, rfl⟩

theorem readSymbol_eq_ok_iff {s : Symbol} {ls rest : List Lexeme} :
    readSymbol unread s ls = .ok rest ↔ ls = .symbol s :: rest ∧ MayEnd unread rest := by
  by_cases hs : ls.head? = some (.symbol s)
  · obtain ⟨ls', rfl⟩ := List.head?_eq_some_iff.1 hs
    rw [readSymbol, if_pos hs, afterFirst_cons_eq_ok_iff, List.cons.injEq, eq_self, true_and]
  · rw [readSymbol, if_neg hs, unexpectedAt_ne_ok, false_iff]
    intro h
    exact hs (congrArg List.head? h.1)

theorem readWord_eq_ok_iff {word : List Char} {ls rest : List Lexeme} :
    readWord unread ls = .ok (word, rest) ↔ ls = .word word :: rest ∧ MayEnd unread rest := by
  unfold readWord
  split
  · rw [afterFirst_bind_eq_ok_iff, List.cons.injEq, Lexeme.word.injEq, and_assoc]
  · rename_i hne
    rw [unexpectedAt_ne_ok, false_iff]
    intro h
    exact hne word rest h.1

theorem readNumeral_eq_ok_iff {n : Numeral} {ls rest : List Lexeme} :
    readNumeral unread ls = .ok (n, rest) ↔ ls = .integer n :: rest ∧ MayEnd unread rest := by
  unfold readNumeral
  split
  · rw [afterFirst_bind_eq_ok_iff, List.cons.injEq, Lexeme.integer.injEq, and_assoc]
  · rename_i hne
    rw [unexpectedAt_ne_ok, false_iff]
    intro h
    exact hne n rest h.1

theorem readOptional_eq_true_iff {s : Symbol} {ls rest : List Lexeme} :
    readOptional unread s ls = .ok (true, rest) ↔ ls = .symbol s :: rest ∧ MayEnd unread rest := by
  by_cases hs : ls.head? = some (.symbol s)
  · obtain ⟨ls', rfl⟩ := List.head?_eq_some_iff.1 hs
    rw [readOptional, if_pos hs, afterFirst_bind_eq_ok_iff, List.cons.injEq, eq_self, true_and,
      eq_self, true_and]
  · rw [readOptional, if_neg hs, pure_eq_ok, Prod.mk.injEq]
    constructor
    · intro h
      exact absurd h.1 Bool.false_ne_true
    · intro h
      exact absurd (congrArg List.head? h.1) hs

theorem readOptional_eq_false_iff {s : Symbol} {ls rest : List Lexeme} :
    readOptional unread s ls = .ok (false, rest) ↔
      ls = rest ∧ rest.head? ≠ some (.symbol s) := by
  by_cases hs : ls.head? = some (.symbol s)
  · obtain ⟨ls', rfl⟩ := List.head?_eq_some_iff.1 hs
    rw [readOptional, if_pos hs, afterFirst_bind_eq_ok_iff]
    constructor
    · intro h
      exact absurd h.1.symm Bool.false_ne_true
    · intro h
      exact absurd (h.1 ▸ hs) h.2
  · rw [readOptional, if_neg hs, pure_eq_ok, Prod.mk.injEq, eq_self, true_and]
    constructor
    · intro h
      exact ⟨h, h ▸ hs⟩
    · exact And.left

/-! ### Soundness and completeness of a reader -/

/-- The reader takes what derives its value, and takes all that derives a value in front of what
may follow. -/
structure Reads (unread : Option (List Char)) {α : Type} (read : Reader α)
    (derives : List Lexeme → α → Prop) (follows : List Lexeme → Prop) : Prop where
  /-- What has been taken derives the value. -/
  sound : ∀ {ls rest : List Lexeme} {a : α}, read ls = .ok (a, rest) →
    ∃ taken, ls = taken ++ rest ∧ derives taken a ∧ MayEnd unread rest
  /-- What derives a value is taken. -/
  complete : ∀ {taken rest : List Lexeme} {a : α}, derives taken a → follows rest →
    MayEnd unread rest → read (taken ++ rest) = .ok (a, rest)

/-- The lexemes do not start with one of the symbols. -/
def NotBefore (symbols : List Symbol) (ls : List Lexeme) : Prop :=
  ∀ s ∈ symbols, ls.head? ≠ some (.symbol s)

theorem NotBefore.mono {symbols symbols' : List Symbol} {ls : List Lexeme}
    (h : NotBefore symbols ls) (hsub : symbols' ⊆ symbols) : NotBefore symbols' ls :=
  fun s hs => h s (hsub hs)

/-! ### Values -/

theorem valueOf_eq_ok {n : Numeral} {ls : List Lexeme} {k : Int} (h : valueOf n ls = .ok k) :
    k = n.value := by
  unfold valueOf at h
  split at h
  · cases h; rfl
  · cases h

theorem valueOf_of_bounds {n : Numeral} (ls : List Lexeme)
    (h : -9223372036854775808 ≤ n.value ∧ n.value ≤ 9223372036854775807) :
    valueOf n ls = .ok n.value :=
  if_pos h

theorem filter_year_eq_none_iff {year : Option Int} :
    (year.filter fun y => y < firstRuleYear ∨ lastRuleYear < y) = none ↔
      ∀ y ∈ year, 1900 ≤ y ∧ y ≤ 2200 := by
  simp only [Option.filter_eq_none_iff, decide_eq_true_eq]
  unfold firstRuleYear lastRuleYear
  exact forall₂_congr fun y _ => by omega

/-- The checks on a date let through the dates that a rule may name. -/
theorem dateOf_eq_ok_iff {year : Option Int} {month day : Int} {ls : List Lexeme}
    {v : DateValue} :
    dateOf year month day ls = .ok v ↔
      ⟨year, month, day⟩ = v ∧ (⟨year, month, day⟩ : DateValue).IsNameable := by
  unfold dateOf DateValue.IsNameable
  rw [← filter_year_eq_none_iff]
  split
  · rename_i hyear
    rw [hyear]
    simp
  · rename_i hyear
    rw [hyear]
    dsimp only
    split
    · simp only [faultAt_ne_ok, false_iff]; omega
    · split
      · simp only [faultAt_ne_ok, false_iff]; omega
      · simp only [Except.ok.injEq, true_and]
        exact ⟨fun h => ⟨h, by omega⟩, And.left⟩

/-- The numbers of a date that a rule may name are far from needing more than 64 bits. -/
theorem DateValue.IsNameable.bounds {v : DateValue} (h : v.IsNameable) :
    (-9223372036854775808 ≤ v.month ∧ v.month ≤ 9223372036854775807) ∧
      (-9223372036854775808 ≤ v.day ∧ v.day ≤ 9223372036854775807) := by
  obtain ⟨-, hmonth, hday⟩ := h
  have := monthLength_le (v.year.getD yearlessLeapYear) v.month
  omega

theorem reads_readDate : Reads unread (readDate unread) DerivesDate (NotBefore [.slash]) where
  sound := by
    intro ls rest v h
    unfold readDate at h
    simp only [bind_eq_ok, Prod.exists] at h
    obtain ⟨a, ls₁, h₁, ls₂, h₂, b, ls₃, h₃, more, ls₄, h₄, h⟩ := h
    obtain ⟨rfl, -⟩ := readNumeral_eq_ok_iff.1 h₁
    obtain ⟨rfl, -⟩ := readSymbol_eq_ok_iff.1 h₂
    obtain ⟨rfl, hend⟩ := readNumeral_eq_ok_iff.1 h₃
    -- with a second slash the first of the numbers was the year
    cases more with
    | true =>
        obtain ⟨rfl, -⟩ := readOptional_eq_true_iff.1 h₄
        simp only [if_true, bind_eq_ok, Prod.exists, pure_eq_ok, Prod.mk.injEq] at h
        obtain ⟨c, ls₅, h₅, year, hy, month, hm, day, hd, v, hv, rfl, rfl⟩ := h
        obtain ⟨rfl, hend'⟩ := readNumeral_eq_ok_iff.1 h₅
        rw [valueOf_eq_ok hy, valueOf_eq_ok hm, valueOf_eq_ok hd] at hv
        obtain ⟨rfl, hnameable⟩ := dateOf_eq_ok_iff.1 hv
        exact ⟨_, rfl, DerivesDate.full a b c hnameable, hend'⟩
    | false =>
        obtain ⟨rfl, -⟩ := readOptional_eq_false_iff.1 h₄
        simp only [Bool.false_eq_true, if_false, bind_eq_ok, pure_eq_ok, Prod.mk.injEq] at h
        obtain ⟨month, hm, day, hd, v, hv, rfl, rfl⟩ := h
        rw [valueOf_eq_ok hm, valueOf_eq_ok hd] at hv
        obtain ⟨rfl, hnameable⟩ := dateOf_eq_ok_iff.1 hv
        exact ⟨_, rfl, DerivesDate.yearless a b hnameable, hend⟩
  complete := by
    intro taken rest v h hfollows hend
    cases h with
    | yearless m d hv =>
        have hbounds := hv.bounds
        refine bind_eq_ok.2 ⟨(m, _), readNumeral_eq_ok_iff.2 ⟨rfl, mayEnd_cons _ _⟩, ?_⟩
        refine bind_eq_ok.2 ⟨_, readSymbol_eq_ok_iff.2 ⟨rfl, mayEnd_cons _ _⟩, ?_⟩
        refine bind_eq_ok.2 ⟨(d, _), readNumeral_eq_ok_iff.2 ⟨rfl, hend⟩, ?_⟩
        have hslash := hfollows .slash (List.mem_singleton_self _)
        refine bind_eq_ok.2 ⟨(false, _), readOptional_eq_false_iff.2 ⟨rfl, hslash⟩, ?_⟩
        refine bind_eq_ok.2 ⟨_, valueOf_of_bounds _ hbounds.1, ?_⟩
        refine bind_eq_ok.2 ⟨_, valueOf_of_bounds _ hbounds.2, ?_⟩
        exact bind_eq_ok.2 ⟨_, dateOf_eq_ok_iff.2 ⟨rfl, hv⟩, rfl⟩
    | full y m d hv =>
        have hbounds := hv.bounds
        have hyear := hv.1 y.value rfl
        refine bind_eq_ok.2 ⟨(y, _), readNumeral_eq_ok_iff.2 ⟨rfl, mayEnd_cons _ _⟩, ?_⟩
        refine bind_eq_ok.2 ⟨_, readSymbol_eq_ok_iff.2 ⟨rfl, mayEnd_cons _ _⟩, ?_⟩
        refine bind_eq_ok.2 ⟨(m, _), readNumeral_eq_ok_iff.2 ⟨rfl, mayEnd_cons _ _⟩, ?_⟩
        refine bind_eq_ok.2 ⟨(true, _), readOptional_eq_true_iff.2 ⟨rfl, mayEnd_cons _ _⟩, ?_⟩
        refine bind_eq_ok.2 ⟨(d, _), readNumeral_eq_ok_iff.2 ⟨rfl, hend⟩, ?_⟩
        refine bind_eq_ok.2 ⟨_, valueOf_of_bounds _ (by omega), ?_⟩
        refine bind_eq_ok.2 ⟨_, valueOf_of_bounds _ hbounds.1, ?_⟩
        refine bind_eq_ok.2 ⟨_, valueOf_of_bounds _ hbounds.2, ?_⟩
        exact bind_eq_ok.2 ⟨_, dateOf_eq_ok_iff.2 ⟨rfl, hv⟩, rfl⟩

theorem takes_bounds {d : Dial} {n : Int} (h : d.Takes n) : -60 ≤ n ∧ n ≤ 60 := by
  cases d <;> simp only [Dial.Takes, Dial.low, Dial.high] at h <;> omega

theorem reads_readDialValue (d : Dial) :
    Reads unread (readDialValue unread d) (DerivesDialValue d) (NotBefore [.slash]) where
  sound := by
    intro ls rest n h
    unfold readDialValue at h
    split at h
    · simp only [bind_eq_ok] at h
      obtain ⟨ls', hafter, k, hk, h⟩ := h
      obtain ⟨rfl, hend⟩ := afterFirst_cons_eq_ok_iff.1 hafter
      split at h
      · rename_i numeral _ htakes
        simp only [pure_eq_ok, Prod.mk.injEq] at h
        obtain ⟨rfl, rfl⟩ := h
        rw [valueOf_eq_ok hk] at htakes ⊢
        exact ⟨[.integer numeral], rfl, DerivesDialValue.number numeral htakes, hend⟩
      · simp at h
    · rename_i word _
      split at h
      · rename_i hdial
        simp only [bind_eq_ok] at h
        obtain ⟨ls', hafter, h⟩ := h
        obtain ⟨rfl, hend⟩ := afterFirst_cons_eq_ok_iff.1 hafter
        split at h
        · rename_i k hday
          simp only [pure_eq_ok, Prod.mk.injEq] at h
          obtain ⟨rfl, rfl⟩ := h
          exact ⟨[.word word], rfl,
            DerivesDialValue.day word k hdial (dayOfWeek?_eq_some_iff.1 hday), hend⟩
        · simp at h
      · simp at h
    · simp at h
  complete := by
    intro taken rest n h _ hend
    have hafter {l : Lexeme} : afterFirst unread (l :: rest) = .ok rest :=
      afterFirst_cons_eq_ok_iff.2 ⟨rfl, hend⟩
    cases h with
    | number numeral htakes =>
        have hbounds := takes_bounds htakes
        refine bind_eq_ok.2 ⟨_, hafter, bind_eq_ok.2 ⟨_, valueOf_of_bounds _ (by omega), ?_⟩⟩
        rw [if_pos htakes]
        rfl
    | day word n hdial hday =>
        subst hdial
        refine bind_eq_ok.2 ⟨_, hafter, ?_⟩
        rw [dayOfWeek?_eq_some_iff.2 hday]
        rfl

/-! ### Extents and intervals -/

theorem readRangeMark_eq_some_iff {ls rest : List Lexeme} {halfOpen : Bool} :
    readRangeMark unread ls = .ok (some halfOpen, rest) ↔
      ls = .symbol (rangeMark halfOpen) :: rest ∧ MayEnd unread rest := by
  unfold readRangeMark
  split
  · rw [afterFirst_bind_eq_ok_iff]
    cases halfOpen <;> simp [rangeMark]
  · rw [afterFirst_bind_eq_ok_iff]
    cases halfOpen <;> simp [rangeMark]
  · rename_i hinclusive hhalfOpen
    rw [pure_eq_ok, Prod.mk.injEq]
    constructor
    · intro h
      exact absurd h.1 (Option.some_ne_none halfOpen).symm
    · intro h
      cases halfOpen with
      | false => exact absurd h.1 (hinclusive rest)
      | true => exact absurd h.1 (hhalfOpen rest)

theorem readRangeMark_eq_none_iff {ls rest : List Lexeme} :
    readRangeMark unread ls = .ok (none, rest) ↔
      ls = rest ∧ NotBefore [.rangeInclusive, .rangeHalfOpen] rest := by
  unfold readRangeMark
  split
  · rw [afterFirst_bind_eq_ok_iff]
    constructor
    · intro h
      exact absurd h.1 (Option.some_ne_none false)
    · intro h
      exact absurd (congrArg List.head? h.1.symm) (h.2 .rangeInclusive (by simp))
  · rw [afterFirst_bind_eq_ok_iff]
    constructor
    · intro h
      exact absurd h.1 (Option.some_ne_none true)
    · intro h
      exact absurd (congrArg List.head? h.1.symm) (h.2 .rangeHalfOpen (by simp))
  · rename_i hinclusive hhalfOpen
    rw [pure_eq_ok, Prod.mk.injEq, eq_self, true_and]
    constructor
    · intro h
      refine ⟨h, List.forall_mem_cons.2 ⟨?_, List.forall_mem_singleton.2 ?_⟩⟩
      · intro hhead
        obtain ⟨ls', hls⟩ := List.head?_eq_some_iff.1 hhead
        exact hinclusive ls' (h.trans hls)
      · intro hhead
        obtain ⟨ls', hls⟩ := List.head?_eq_some_iff.1 hhead
        exact hhalfOpen ls' (h.trans hls)
    · exact And.left

theorem readInterval_eq_ok_iff {ls rest : List Lexeme} {n : Nat} :
    readInterval unread ls = .ok (n, rest) ↔
      ∃ numeral : Numeral, ls = .integer numeral :: rest ∧ MayEnd unread rest ∧
        (1 ≤ numeral.value ∧ numeral.value ≤ 4294967295) ∧ n = numeral.value.toNat := by
  unfold readInterval
  simp only [bind_eq_ok, Prod.exists]
  constructor
  · rintro ⟨numeral, ls', hnumeral, k, hk, h⟩
    obtain ⟨rfl, hend⟩ := readNumeral_eq_ok_iff.1 hnumeral
    rw [valueOf_eq_ok hk] at h
    split at h
    · simp at h
    · split at h
      · simp at h
      · simp only [pure_eq_ok, Prod.mk.injEq] at h
        obtain ⟨rfl, rfl⟩ := h
        exact ⟨numeral, rfl, hend, by omega, rfl⟩
  · rintro ⟨numeral, rfl, hend, hbounds, rfl⟩
    refine ⟨numeral, rest, readNumeral_eq_ok_iff.2 ⟨rfl, hend⟩, numeral.value,
      valueOf_of_bounds _ (by omega), ?_⟩
    rw [if_neg (by omega), if_neg (by omega)]
    rfl

section Argument

variable {α : Type} [DecidableEq α] {readValue : Reader α} {endsFault? : α → α → Option Cause}
  {value : List Lexeme → α → Prop} {mayBound : α → α → Prop}

/-- Reading an argument of values that are read soundly and completely. -/
structure ReadsValues (unread : Option (List Char)) (readValue : Reader α)
    (endsFault? : α → α → Option Cause) (value : List Lexeme → α → Prop)
    (mayBound : α → α → Prop) : Prop where
  /-- Values are read as they are derived; a slash would be more of a date. -/
  reads : Reads unread readValue value (NotBefore [.slash])
  /-- Values do not start with a symbol. -/
  starts : ∀ (ls : List Lexeme) (a : α), value ls a → Starts [] ls
  /-- The ends of a range are found faulty if they may not be its ends. -/
  ends : ∀ a b : α, endsFault? a b = none ↔ mayBound a b

theorem sound_readExtent (h : ReadsValues unread readValue endsFault? value mayBound)
    {ls rest : List Lexeme} {e : Extent α}
    (he : readExtent unread readValue endsFault? ls = .ok (e, rest)) :
    ∃ taken, ls = taken ++ rest ∧ DerivesExtent value mayBound taken e ∧ MayEnd unread rest := by
  unfold readExtent at he
  simp only [bind_eq_ok, Prod.exists] at he
  obtain ⟨a, ls₁, ha, mark, ls₂, hmark, he⟩ := he
  obtain ⟨as, rfl, hderives, hend⟩ := h.reads.sound ha
  cases mark with
  | none =>
      obtain ⟨rfl, -⟩ := readRangeMark_eq_none_iff.1 hmark
      simp only [pure_eq_ok, Prod.mk.injEq] at he
      obtain ⟨rfl, rfl⟩ := he
      exact ⟨as, rfl, DerivesExtent.value hderives, hend⟩
  | some halfOpen =>
      obtain ⟨rfl, -⟩ := readRangeMark_eq_some_iff.1 hmark
      simp only [bind_eq_ok, Prod.exists] at he
      obtain ⟨b, ls₃, hb, he⟩ := he
      obtain ⟨bs, rfl, hderives', hend'⟩ := h.reads.sound hb
      -- what is checked of the two ends is what the grammar asks of them
      split at he
      · simp at he
      · rename_i hne
        split at he
        · simp at he
        · rename_i hends
          simp only [pure_eq_ok, Prod.mk.injEq] at he
          obtain ⟨rfl, rfl⟩ := he
          refine ⟨as ++ .symbol (rangeMark halfOpen) :: bs, by simp, ?_, hend'⟩
          exact DerivesExtent.range halfOpen hderives hderives' (fun hopen heq => hne ⟨hopen, heq⟩)
            ((h.ends a b).1 hends)

theorem complete_readExtent_value (h : ReadsValues unread readValue endsFault? value mayBound)
    {ls rest : List Lexeme} {a : α} (ha : value ls a)
    (hfollows : NotBefore [.slash, .rangeInclusive, .rangeHalfOpen] rest)
    (hend : MayEnd unread rest) :
    readExtent unread readValue endsFault? (ls ++ rest) = .ok (.value a, rest) := by
  have hslash : NotBefore [.slash] rest := hfollows.mono (by simp)
  have hmark : NotBefore [.rangeInclusive, .rangeHalfOpen] rest :=
    hfollows.mono (List.subset_cons_self _ _)
  refine bind_eq_ok.2 ⟨(a, rest), h.reads.complete ha hslash hend, ?_⟩
  exact bind_eq_ok.2 ⟨(none, rest), readRangeMark_eq_none_iff.2 ⟨rfl, hmark⟩, rfl⟩

theorem complete_readExtent_range (h : ReadsValues unread readValue endsFault? value mayBound)
    {ls ms rest : List Lexeme} {a b : α} {halfOpen : Bool} (ha : value ls a) (hb : value ms b)
    (hne : halfOpen = true → a ≠ b) (hbound : mayBound a b) (hslash : NotBefore [.slash] rest)
    (hend : MayEnd unread rest) :
    readExtent unread readValue endsFault? (ls ++ .symbol (rangeMark halfOpen) :: (ms ++ rest)) =
      .ok (.range a b halfOpen, rest) := by
  -- the mark between the ends is no slash, so the first end stops in front of it
  have hstart : NotBefore [.slash] (.symbol (rangeMark halfOpen) :: (ms ++ rest)) := by
    intro s hs
    cases halfOpen <;> simp_all [rangeMark]
  have hms : MayEnd unread (ms ++ rest) := fun _ => ((h.starts ms b hb).append rest).ne_nil
  refine bind_eq_ok.2 ⟨(a, _), h.reads.complete ha hstart (mayEnd_cons _ _), ?_⟩
  refine bind_eq_ok.2 ⟨(some halfOpen, _), readRangeMark_eq_some_iff.2 ⟨rfl, hms⟩, ?_⟩
  refine bind_eq_ok.2 ⟨(b, rest), h.reads.complete hb hslash hend, ?_⟩
  dsimp only
  rw [if_neg fun hempty => hne hempty.1 hempty.2, (h.ends a b).2 hbound]
  rfl

theorem reads_readWildcardOrExtent
    (h : ReadsValues unread readValue endsFault? value mayBound) :
    Reads unread (readWildcardOrExtent unread readValue endsFault?) (DerivesExtent value mayBound)
      (NotBefore [.slash, .rangeInclusive, .rangeHalfOpen]) where
  sound := by
    intro ls rest e he
    unfold readWildcardOrExtent at he
    simp only [bind_eq_ok, Prod.exists] at he
    obtain ⟨wildcard, ls₁, hwildcard, he⟩ := he
    cases wildcard with
    | true =>
        obtain ⟨rfl, hend⟩ := readOptional_eq_true_iff.1 hwildcard
        simp only [if_true, pure_eq_ok, Prod.mk.injEq] at he
        obtain ⟨rfl, rfl⟩ := he
        exact ⟨[.symbol .wildcard], rfl, DerivesExtent.wildcard, hend⟩
    | false =>
        obtain ⟨rfl, -⟩ := readOptional_eq_false_iff.1 hwildcard
        exact sound_readExtent h he
  complete := by
    intro taken rest e he hfollows hend
    -- no value starts with the wildcard
    have hnone {ls : List Lexeme} {a : α} (ha : value ls a) (ms : List Lexeme) :
        readOptional unread .wildcard (ls ++ ms) = .ok (false, ls ++ ms) :=
      readOptional_eq_false_iff.2 ⟨rfl, ((h.starts ls a ha).append ms).head?_ne (by simp)⟩
    cases he with
    | wildcard =>
        exact bind_eq_ok.2 ⟨(true, rest), readOptional_eq_true_iff.2 ⟨rfl, hend⟩, rfl⟩
    | value ha =>
        refine bind_eq_ok.2 ⟨(false, _), hnone ha rest, ?_⟩
        exact complete_readExtent_value h ha hfollows hend
    | range halfOpen ha hb hne hbound =>
        rw [List.append_assoc, List.cons_append]
        refine bind_eq_ok.2 ⟨(false, _), hnone ha _, ?_⟩
        have hslash : NotBefore [.slash] rest := hfollows.mono (by simp)
        exact complete_readExtent_range h ha hb hne hbound hslash hend

theorem sound_readOptionalInterval {ls rest : List Lexeme} {interval : Option Nat}
    (h : readOptionalInterval unread ls = .ok (interval, rest)) (hls : MayEnd unread ls) :
    ∃ taken, ls = taken ++ rest ∧ DerivesInterval taken interval ∧ MayEnd unread rest := by
  unfold readOptionalInterval at h
  simp only [bind_eq_ok, Prod.exists] at h
  obtain ⟨marked, ls₁, hmarked, h⟩ := h
  cases marked with
  | true =>
      obtain ⟨rfl, -⟩ := readOptional_eq_true_iff.1 hmarked
      simp only [if_true, bind_eq_ok, Prod.exists, pure_eq_ok, Prod.mk.injEq] at h
      obtain ⟨n, ls₂, hn, rfl, rfl⟩ := h
      obtain ⟨numeral, rfl, hend, hbounds, rfl⟩ := readInterval_eq_ok_iff.1 hn
      exact ⟨_, rfl, DerivesInterval.every numeral hbounds, hend⟩
  | false =>
      obtain ⟨rfl, -⟩ := readOptional_eq_false_iff.1 hmarked
      simp only [Bool.false_eq_true, if_false, pure_eq_ok, Prod.mk.injEq] at h
      obtain ⟨rfl, rfl⟩ := h
      exact ⟨[], rfl, DerivesInterval.absent, hls⟩

theorem complete_readOptionalInterval {taken rest : List Lexeme} {interval : Option Nat}
    (h : DerivesInterval taken interval) (hfollows : NotBefore [.interval] rest)
    (hend : MayEnd unread rest) :
    readOptionalInterval unread (taken ++ rest) = .ok (interval, rest) := by
  cases h with
  | absent =>
      have hne := hfollows .interval (by simp)
      exact bind_eq_ok.2 ⟨(false, rest), readOptional_eq_false_iff.2 ⟨rfl, hne⟩, rfl⟩
  | every numeral hbounds =>
      have hread := readInterval_eq_ok_iff.2 ⟨numeral, rfl, hend, hbounds, rfl⟩
      refine bind_eq_ok.2 ⟨(true, _), readOptional_eq_true_iff.2 ⟨rfl, mayEnd_cons _ _⟩, ?_⟩
      exact bind_eq_ok.2 ⟨_, hread, rfl⟩

/-- The symbols that go on with an argument where one could end. -/
def argumentMarks : List Symbol := [.slash, .rangeInclusive, .rangeHalfOpen, .interval]

/-- **Arguments are read as they are derived.** -/
theorem reads_readArgument (h : ReadsValues unread readValue endsFault? value mayBound) :
    Reads unread (readArgument unread readValue endsFault?) (DerivesArgument value mayBound)
      (NotBefore argumentMarks) where
  sound := by
    intro ls rest a ha
    unfold readArgument at ha
    simp only [bind_eq_ok, Prod.exists] at ha
    obtain ⟨excluded, ls₁, hnot, extent, ls₂, hextent, interval, ls₃, hinterval, ha⟩ := ha
    obtain ⟨es, rfl, hderives, hend₂⟩ := (reads_readWildcardOrExtent h).sound hextent
    obtain ⟨is, rfl, hderives', hend⟩ := sound_readOptionalInterval hinterval hend₂
    split at ha
    · simp at ha
    · rename_i hwildcard
      simp only [pure_eq_ok, Prod.mk.injEq] at ha
      obtain ⟨rfl, rfl⟩ := ha
      cases excluded with
      | true =>
          obtain ⟨rfl, -⟩ := readOptional_eq_true_iff.1 hnot
          refine ⟨.symbol .not :: (es ++ is), by simp, ?_, hend⟩
          exact DerivesArgument.excluded hderives hderives' fun hw hi => hwildcard ⟨hw, rfl, hi⟩
      | false =>
          obtain ⟨rfl, -⟩ := readOptional_eq_false_iff.1 hnot
          exact ⟨es ++ is, by simp, DerivesArgument.included hderives hderives', hend⟩
  complete := by
    intro taken rest a ha hfollows hend
    have hinterval : NotBefore [.interval] rest :=
      hfollows.mono (by simp [argumentMarks])
    -- whether an interval follows or not, the extent does not go on
    have hextent {is : List Lexeme} {interval : Option Nat} (hi : DerivesInterval is interval) :
        NotBefore [.slash, .rangeInclusive, .rangeHalfOpen] (is ++ rest) ∧
          MayEnd unread (is ++ rest) := by
      cases hi with
      | absent => exact ⟨hfollows.mono (by simp [argumentMarks]), hend⟩
      | every numeral _ => exact ⟨by simp [NotBefore], mayEnd_cons _ _⟩
    cases ha with
    | @included es is extent interval he hi =>
        have hnot := ((he.starts h.starts).append (is ++ rest)).head?_ne (s := .not) (by simp)
        obtain ⟨hmarks, hends⟩ := hextent hi
        rw [List.append_assoc]
        refine bind_eq_ok.2 ⟨(false, _), readOptional_eq_false_iff.2 ⟨rfl, hnot⟩, ?_⟩
        have hread := (reads_readWildcardOrExtent h).complete he hmarks hends
        refine bind_eq_ok.2 ⟨(extent, _), hread, ?_⟩
        refine bind_eq_ok.2 ⟨(interval, rest), complete_readOptionalInterval hi hinterval hend, ?_⟩
        exact if_neg fun hw => Bool.false_ne_true hw.2.1
    | @excluded es is extent interval he hi hwildcard =>
        obtain ⟨hmarks, hends⟩ := hextent hi
        have hes : MayEnd unread (es ++ (is ++ rest)) :=
          fun _ => ((he.starts h.starts).append (is ++ rest)).ne_nil
        rw [List.cons_append, List.append_assoc]
        refine bind_eq_ok.2 ⟨(true, _), readOptional_eq_true_iff.2 ⟨rfl, hes⟩, ?_⟩
        have hread := (reads_readWildcardOrExtent h).complete he hmarks hends
        refine bind_eq_ok.2 ⟨(extent, _), hread, ?_⟩
        refine bind_eq_ok.2 ⟨(interval, rest), complete_readOptionalInterval hi hinterval hend, ?_⟩
        exact if_neg fun hw => hwildcard hw.1 hw.2.2

end Argument

/-! ### Both sorts of value -/

theorem DateValue.compare?_swap (v w : DateValue) :
    compare? w v = (compare? v w).map Ordering.swap := by
  have hinYear : compareInYear w v = (compareInYear v w).swap := by
    unfold compareInYear
    rw [Ordering.swap_then, ← Std.OrientedOrd.eq_swap, ← Std.OrientedOrd.eq_swap]
  unfold compare?
  rcases v.year with _ | y <;> rcases w.year with _ | z
  · simp [hinYear]
  · rfl
  · rfl
  · simp [hinYear, Ordering.swap_then, ← Std.OrientedOrd.eq_swap (a := z)]

/-- Dates that compare are ordered one way or the other. -/
theorem DateValue.not_lt_iff_le {v w : DateValue} (h : v.isFull = w.isFull) : ¬w < v ↔ v ≤ w := by
  have hsome : (compare? v w).isSome = true := by rw [isSome_compare?, h, beq_self_eq_true]
  obtain ⟨o, ho⟩ := Option.isSome_iff_exists.1 hsome
  rw [lt_def, le_def, compare?_swap v w, ho]
  cases o <;> decide

/-- Two dates are found faulty as the ends of a range unless they may be its ends. -/
theorem dateEndsFault?_eq_none_iff (start stop : DateValue) :
    dateEndsFault? start stop = none ↔ start.MayBound stop := by
  unfold dateEndsFault? DateValue.MayBound
  by_cases hfull : start.isFull = stop.isFull
  · rw [if_neg (not_not_intro hfull), ← DateValue.not_lt_iff_le hfull]
    simp [hfull]
  · rw [if_pos hfull]
    simp [hfull]

theorem readsValues_date :
    ReadsValues unread (readDate unread) dateEndsFault? DerivesDate DateValue.MayBound where
  reads := reads_readDate
  starts := fun _ _ h => h.starts
  ends := dateEndsFault?_eq_none_iff

theorem readsValues_dial (d : Dial) :
    ReadsValues unread (readDialValue unread d) (fun _ _ => none) (DerivesDialValue d)
      fun _ _ => True where
  reads := reads_readDialValue d
  starts := fun _ _ h => h.starts
  ends := fun _ _ => ⟨fun _ => trivial, fun _ => rfl⟩

end Timetable

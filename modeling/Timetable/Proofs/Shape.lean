/-
**The shape of schedules.**

The grammar asks of a schedule that its lexemes stand in the right order and that its values may be
named.  This module keeps the order and drops the values: any number stands for a number, and any
word for a day of the week.  Only the names of the kinds stay, as they decide which sort of value
may follow.

What is left has no nesting deeper than the grammar itself, so it is a regular language, written
here with sums, products and the star of languages.

    program    = (group + expression) listed
    group      = "{" (expression listed) "}"
    expression = name "(" (argument listed) ")"      with values of the kind named
    argument   = (1 + "!") ("*" + value (1 + (".." + "..<") value)) (1 + "%" integer)

Main definitions:

* `Shape.symbol`, `Shape.integer`, `Shape.word`, `Shape.name` — single lexemes;
* `Shape.date`, `Shape.value`, `Shape.argument` — arguments of a kind;
* `Shape.listed` — one or more things, each with an optional comma behind it;
* `Shape.expression`, `Shape.program` — **the shape of a schedule**.

Main results:

* `Shape.listed_mul` — a list is a thing, an optional comma, and the end of the list or another;
* `DerivesProgram.mem_shape` — every schedule has the shape of one.
-/

import Mathlib.Computability.Language
import Timetable.Proofs.Grammar

set_option relaxedAutoImplicit false
set_option autoImplicit false

namespace Timetable

open scoped Computability

namespace Shape

/-! ### Single lexemes -/

/-- One symbol. -/
def symbol (s : Symbol) : Language Lexeme := {[.symbol s]}

/-- One number, whatever its value. -/
def integer : Language Lexeme := {ls | ∃ n : Numeral, ls = [.integer n]}

/-- One word, whatever it names. -/
def word : Language Lexeme := {ls | ∃ letters : List Char, ls = [.word letters]}

/-- One word that names a kind. -/
def name (kind : Kind) : Language Lexeme :=
  {ls | ∃ letters : List Char, kind.Named letters ∧ ls = [.word letters]}

/-! ### Arguments -/

/-- Two or three numbers with slashes between them. -/
def date : Language Lexeme :=
  integer * symbol .slash * integer * (1 + symbol .slash * integer)

/-- A value of a kind. -/
def value : Kind → Language Lexeme
  | .dates => date
  | .dial d => if d = .daysOfWeek then integer + word else integer

/-- The mark between the ends of a range. -/
def mark : Language Lexeme := symbol .rangeInclusive + symbol .rangeHalfOpen

/-- A wildcard, a value or a range of values. -/
def extent (v : Language Lexeme) : Language Lexeme := symbol .wildcard + v * (1 + mark * v)

/-- An argument made of values. -/
def argument (v : Language Lexeme) : Language Lexeme :=
  (1 + symbol .not) * extent v * (1 + symbol .interval * integer)

/-! ### Lists, expressions and schedules -/

/-- A thing with an optional comma behind it. -/
def separated (thing : Language Lexeme) : Language Lexeme := thing * (1 + symbol .comma)

/-- One or more things, each with an optional comma behind it. -/
def listed (thing : Language Lexeme) : Language Lexeme := separated thing * (separated thing)∗

/-- Arguments of a kind in parentheses. -/
def arguments (kind : Kind) : Language Lexeme :=
  symbol .openParen * listed (argument (value kind)) * symbol .closeParen

/-- The name of a kind and arguments of that kind. -/
def expression : Language Lexeme := {ls | ∃ kind, ls ∈ name kind * arguments kind}

/-- Expressions in braces. -/
def group : Language Lexeme := symbol .openBrace * listed expression * symbol .closeBrace

/-- **The shape of a schedule.** -/
def program : Language Lexeme := listed (group + expression)

/-! ### Words of these languages -/

variable {K : Language Lexeme} {ls : List Lexeme}

@[simp] theorem mem_symbol {s : Symbol} : ls ∈ symbol s ↔ ls = [.symbol s] := Iff.rfl

@[simp] theorem mem_integer : ls ∈ integer ↔ ∃ n : Numeral, ls = [.integer n] := Iff.rfl

@[simp] theorem mem_word : ls ∈ word ↔ ∃ letters : List Char, ls = [.word letters] := Iff.rfl

theorem mem_symbol_mul {s : Symbol} : ls ∈ symbol s * K ↔ ∃ rest ∈ K, ls = .symbol s :: rest := by
  simp only [Language.mem_mul, mem_symbol]
  constructor
  · rintro ⟨_, rfl, rest, hrest, rfl⟩
    exact ⟨rest, hrest, rfl⟩
  · rintro ⟨rest, hrest, rfl⟩
    exact ⟨_, rfl, rest, hrest, rfl⟩

theorem mem_integer_mul : ls ∈ integer * K ↔ ∃ n, ∃ rest ∈ K, ls = .integer n :: rest := by
  simp only [Language.mem_mul, mem_integer]
  constructor
  · rintro ⟨_, ⟨n, rfl⟩, rest, hrest, rfl⟩
    exact ⟨n, rest, hrest, rfl⟩
  · rintro ⟨n, rest, hrest, rfl⟩
    exact ⟨_, ⟨n, rfl⟩, rest, hrest, rfl⟩

theorem mem_word_mul : ls ∈ word * K ↔ ∃ letters, ∃ rest ∈ K, ls = .word letters :: rest := by
  simp only [Language.mem_mul, mem_word]
  constructor
  · rintro ⟨_, ⟨letters, rfl⟩, rest, hrest, rfl⟩
    exact ⟨letters, rest, hrest, rfl⟩
  · rintro ⟨letters, rest, hrest, rfl⟩
    exact ⟨_, ⟨letters, rfl⟩, rest, hrest, rfl⟩

@[simp] theorem cons_mem_symbol_mul {s : Symbol} : .symbol s :: ls ∈ symbol s * K ↔ ls ∈ K := by
  simp [mem_symbol_mul]

@[simp] theorem cons_mem_integer_mul {n : Numeral} : .integer n :: ls ∈ integer * K ↔ ls ∈ K := by
  simp [mem_integer_mul]

theorem mem_expression_mul :
    ls ∈ expression * K ↔ ∃ letters, ∃ kind : Kind, kind.Named letters ∧
      ∃ rest ∈ arguments kind * K, ls = .word letters :: rest := by
  constructor
  · rintro ⟨_, ⟨kind, _, ⟨letters, hname, rfl⟩, as, has, rfl⟩, rest, hrest, rfl⟩
    exact ⟨letters, kind, hname, as ++ rest, Language.append_mem_mul has hrest, rfl⟩
  · rintro ⟨letters, kind, hname, _, ⟨as, has, rest, hrest, rfl⟩, rfl⟩
    exact ⟨_, ⟨kind, _, ⟨letters, hname, rfl⟩, as, has, rfl⟩, rest, hrest, rfl⟩

/-- An optional part that comes starts what follows, and one that does not come is skipped. -/
theorem optional_mul (L K : Language Lexeme) : (1 + L) * K = L * K + K := by
  rw [add_mul, one_mul, add_comm]

/-- **A list is a thing, an optional comma, and the end of the list or another list.** -/
theorem listed_mul (thing K : Language Lexeme) :
    listed thing * K = thing * ((1 + symbol .comma) * (K + listed thing * K)) := by
  have hstar : (separated thing)∗ * K = K + listed thing * K := by
    nth_rewrite 1 [← Language.one_add_self_mul_kstar_eq_kstar]
    rw [add_mul, one_mul]
    rfl
  rw [← hstar, listed, separated, mul_assoc, mul_assoc]

/-! ### First lexemes -/

/-- All words of the language start with a lexeme that is one of the symbols or none at all. -/
def StartsWith (symbols : List Symbol) (L : Language Lexeme) : Prop :=
  ∀ ls ∈ L, Starts symbols ls

namespace StartsWith

variable {symbols symbols' : List Symbol} {L M : Language Lexeme}

theorem mono (h : StartsWith symbols L) (hsub : symbols ⊆ symbols') : StartsWith symbols' L :=
  fun ls hls => (h ls hls).mono hsub

theorem mul (h : StartsWith symbols L) (M : Language Lexeme) : StartsWith symbols (L * M) := by
  rintro _ ⟨ls, hls, ms, -, rfl⟩
  exact (h ls hls).append ms

theorem add (hL : StartsWith symbols L) (hM : StartsWith symbols M) :
    StartsWith symbols (L + M) := by
  rintro ls (hls | hls)
  · exact hL ls hls
  · exact hM ls hls

theorem listed (h : StartsWith symbols L) : StartsWith symbols (Shape.listed L) :=
  (h.mul _).mul _

end StartsWith

theorem startsWith_symbol (s : Symbol) : StartsWith [s] (symbol s) := by
  rintro _ rfl
  exact ⟨_, _, rfl, by simp⟩

theorem startsWith_integer : StartsWith [] integer := by
  rintro _ ⟨n, rfl⟩
  exact ⟨_, _, rfl, by simp⟩

theorem startsWith_word : StartsWith [] word := by
  rintro _ ⟨letters, rfl⟩
  exact ⟨_, _, rfl, by simp⟩

theorem startsWith_value (kind : Kind) : StartsWith [] (value kind) := by
  cases kind with
  | dates => exact ((startsWith_integer.mul _).mul _).mul _
  | dial d =>
      rw [value]
      split
      · exact startsWith_integer.add startsWith_word
      · exact startsWith_integer

theorem startsWith_extent {v : Language Lexeme} (h : StartsWith [] v) :
    StartsWith [.wildcard] (extent v) :=
  (startsWith_symbol _).add ((h.mul _).mono (List.nil_subset _))

theorem startsWith_argument {v : Language Lexeme} (h : StartsWith [] v) :
    StartsWith [.wildcard, .not] (argument v) := by
  have hextent : StartsWith [.wildcard, .not] (extent v) := (startsWith_extent h).mono (by simp)
  have hnot : StartsWith [.wildcard, .not] (symbol .not) := (startsWith_symbol _).mono (by simp)
  rw [argument, optional_mul]
  exact ((hnot.mul _).add hextent).mul _

/-- An expression starts with a word. -/
theorem exists_word (h : ls ∈ expression * K) : ∃ letters rest, ls = .word letters :: rest := by
  obtain ⟨letters, -, -, rest, -, rfl⟩ := mem_expression_mul.1 h
  exact ⟨letters, rest, rfl⟩

/-- A group starts with its opening brace. -/
theorem exists_openBrace (h : ls ∈ group * K) : ∃ rest, ls = .symbol .openBrace :: rest := by
  rw [group, mul_assoc, mul_assoc] at h
  obtain ⟨rest, -, rfl⟩ := mem_symbol_mul.1 h
  exact ⟨rest, rfl⟩

theorem startsWith_expression : StartsWith [] expression := by
  intro ls hls
  rw [← mul_one expression] at hls
  obtain ⟨letters, rest, rfl⟩ := exists_word hls
  exact ⟨_, _, rfl, by simp⟩

theorem startsWith_group : StartsWith [.openBrace] group := ((startsWith_symbol _).mul _).mul _

theorem startsWith_item : StartsWith [.openBrace] (group + expression) :=
  startsWith_group.add (startsWith_expression.mono (List.nil_subset _))

end Shape

/-! ### Schedules have this shape -/

theorem DerivesDate.mem_shape {ls : List Lexeme} {v : DateValue} (h : DerivesDate ls v) :
    ls ∈ Shape.value .dates := by
  rw [Shape.value, Shape.date, mul_assoc, mul_assoc]
  cases h with
  | yearless m d =>
      have hend : [] ∈ 1 + Shape.symbol .slash * Shape.integer := Or.inl rfl
      simpa only [Shape.cons_mem_integer_mul, Shape.cons_mem_symbol_mul] using hend
  | full y m d =>
      have hend : [.symbol .slash, .integer d] ∈ 1 + Shape.symbol .slash * Shape.integer :=
        Or.inr (Shape.cons_mem_symbol_mul.2 ⟨d, rfl⟩)
      simpa only [Shape.cons_mem_integer_mul, Shape.cons_mem_symbol_mul] using hend

theorem DerivesDialValue.mem_shape {d : Dial} {ls : List Lexeme} {n : Int}
    (h : DerivesDialValue d ls n) : ls ∈ Shape.value (.dial d) := by
  rw [Shape.value]
  cases h with
  | number n =>
      split
      · exact Or.inl ⟨n, rfl⟩
      · exact ⟨n, rfl⟩
  | day word n hdial =>
      rw [if_pos hdial]
      exact Or.inr ⟨word, rfl⟩

section Argument

variable {α : Type} {value : List Lexeme → α → Prop} {mayBound : α → α → Prop}
  {v : Language Lexeme} {ls : List Lexeme}

theorem DerivesExtent.mem_shape (hvalue : ∀ ls a, value ls a → ls ∈ v) {e : Extent α}
    (h : DerivesExtent value mayBound ls e) : ls ∈ Shape.extent v := by
  cases h with
  | wildcard => exact Or.inl rfl
  | value ha =>
      refine Or.inr ⟨ls, hvalue _ _ ha, [], Or.inl rfl, List.append_nil ls⟩
  | range halfOpen ha hb hne hbound =>
      have hmark : [.symbol (rangeMark halfOpen)] ∈ Shape.mark := by
        cases halfOpen with
        | false => exact Or.inl rfl
        | true => exact Or.inr rfl
      have hstop := Language.append_mem_mul hmark (hvalue _ _ hb)
      exact Or.inr (Language.append_mem_mul (hvalue _ _ ha) (Or.inr hstop))

theorem DerivesInterval.mem_shape {interval : Option Nat} (h : DerivesInterval ls interval) :
    ls ∈ 1 + Shape.symbol .interval * Shape.integer := by
  cases h with
  | absent => exact Or.inl rfl
  | every n => exact Or.inr (Shape.cons_mem_symbol_mul.2 ⟨n, rfl⟩)

theorem DerivesArgument.mem_shape (hvalue : ∀ ls a, value ls a → ls ∈ v) {a : Argument α}
    (h : DerivesArgument value mayBound ls a) : ls ∈ Shape.argument v := by
  rw [Shape.argument, mul_assoc, Shape.optional_mul]
  cases h with
  | included he hi =>
      exact Or.inr (Language.append_mem_mul (he.mem_shape hvalue) hi.mem_shape)
  | excluded he hi hwildcard =>
      refine Or.inl (Shape.cons_mem_symbol_mul.2 ?_)
      exact Language.append_mem_mul (he.mem_shape hvalue) hi.mem_shape

end Argument

theorem OptionalComma.mem_shape {sep : List Lexeme} (h : OptionalComma sep) :
    sep ∈ 1 + Shape.symbol .comma := by
  cases h with
  | absent => exact Or.inl rfl
  | comma => exact Or.inr rfl

theorem DerivesList.mem_listed {α : Type} {thing : List Lexeme → α → Prop} {L : Language Lexeme}
    (hthing : ∀ ls a, thing ls a → ls ∈ L) {ls : List Lexeme} {as : List α}
    (h : DerivesList thing ls as) : ls ∈ Shape.listed L := by
  induction h with
  | last ha hsep =>
      rw [← mul_one (Shape.listed L), Shape.listed_mul]
      refine Language.append_mem_mul (hthing _ _ ha) ?_
      exact ⟨_, hsep.mem_shape, [], Or.inl rfl, List.append_nil _⟩
  | cons ha hsep _ ih =>
      rw [← mul_one (Shape.listed L)] at ih ⊢
      rw [Shape.listed_mul]
      refine Language.append_mem_mul (hthing _ _ ha) ?_
      exact Language.append_mem_mul hsep.mem_shape (Or.inr ih)

theorem DerivesExpression.mem_shape {ls : List Lexeme} {e : Expression}
    (h : DerivesExpression ls e) : ls ∈ Shape.expression := by
  have hclose {L : Language Lexeme} {ls : List Lexeme} (hls : ls ∈ L) :
      .symbol .openParen :: (ls ++ [.symbol .closeParen]) ∈
        Shape.symbol .openParen * L * Shape.symbol .closeParen := by
    rw [mul_assoc]
    exact Shape.cons_mem_symbol_mul.2 (Language.append_mem_mul hls rfl)
  rw [← mul_one Shape.expression, Shape.mem_expression_mul]
  cases h with
  | @dates word ls as hname has =>
      have hlist := has.mem_listed fun _ _ ha => ha.mem_shape fun _ _ hv => hv.mem_shape
      refine ⟨word, .dates, hname, _, ?_, rfl⟩
      rw [mul_one]
      exact hclose hlist
  | @dial d word ls as hname has =>
      have hlist := has.mem_listed fun _ _ ha => ha.mem_shape fun _ _ hv => hv.mem_shape
      refine ⟨word, .dial d, hname, _, ?_, rfl⟩
      rw [mul_one]
      exact hclose hlist

theorem DerivesItem.mem_shape {ls : List Lexeme} {i : Item} (h : DerivesItem ls i) :
    ls ∈ Shape.group + Shape.expression := by
  cases h with
  | braced hes =>
      refine Or.inl ?_
      rw [Shape.group, mul_assoc]
      have hlist := hes.mem_listed fun _ _ he => he.mem_shape
      exact Shape.cons_mem_symbol_mul.2 (Language.append_mem_mul hlist rfl)
  | loose he => exact Or.inr he.mem_shape

/-- **Every schedule has the shape of one.** -/
theorem DerivesProgram.mem_shape {ls : List Lexeme} {p : Program} (h : DerivesProgram ls p) :
    ls ∈ Shape.program :=
  h.mem_listed fun _ _ hi => hi.mem_shape

end Timetable

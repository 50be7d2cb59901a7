/-
**The grammar of schedules.**

The readers decide every choice by one lexeme of look-ahead and check values between taking lexemes.
This module says which lists of lexemes are schedules without saying how to read them: one relation
for each rule of the grammar, between lexemes and what they are read as, with the conditions on
values where the values stand.

    program    = item ([","] item)* [","]
    item       = "{" expression ([","] expression)* [","] "}" | expression
    expression = word "(" argument ([","] argument)* [","] ")"
    argument   = ["!"] ("*" | value [(".." | "..<") value]) ["%" integer]

Main definitions:

* `Kind.Named`, `NamesDay` — the words that name a kind and a day of the week, in any letter case;
* `DateValue.IsNameable`, `DateValue.MayBound` — the dates a rule may name, and the pairs of them
  that may be the ends of a range;
* `DerivesDate`, `DerivesDialValue` — the values of the two sorts of kind;
* `DerivesExtent`, `DerivesInterval`, `DerivesArgument` — arguments, for any sort of value;
* `DerivesList` — one or more things, each with an optional comma behind it;
* `DerivesExpression`, `DerivesItem`, `DerivesProgram` — **the grammar**;
* `Starts` — the first lexeme is one of some symbols or none at all.

Main results:

* `Kind.ofName?_eq_some_iff`, `dayOfWeek?_eq_some_iff` — looking a name up finds what it names, as
  no name belongs to two kinds or to two days.
-/

import Timetable.Program
import Timetable.Rule.Name
import Timetable.Token

set_option relaxedAutoImplicit false
set_option autoImplicit false

namespace Timetable

/-! ### Names -/

/-- The word is one of the names of the kind, in any letter case. -/
def Kind.Named (kind : Kind) (word : List Char) : Prop :=
  ∃ name ∈ kind.names, name.toList = foldCase word

/-- The word is one of the names of the day of the week with this number, in any letter case. -/
def NamesDay (word : List Char) (n : Int) : Prop :=
  ∃ day ∈ dayNames, day.1 = n ∧ ∃ name ∈ day.2, name.toList = foldCase word

theorem Kind.mem_all (kind : Kind) : kind ∈ Kind.all := by
  cases kind with
  | dates => decide
  | dial d => cases d <;> decide

/-- No two kinds have a name in common. -/
theorem Kind.names_disjoint :
    Kind.all.Pairwise fun kind kind' => ∀ name ∈ kind.names, name ∉ kind'.names := by
  decide

/-- No two days of the week have a name in common. -/
theorem dayNames_disjoint :
    dayNames.Pairwise fun day day' => ∀ name ∈ day.2, name ∉ day'.2 := by
  decide

/-- In a list without two hits the first hit is the only one. -/
theorem find?_eq_some_iff_of_pairwise {α : Type} {l : List α} {p : α → Bool} {a : α}
    (h : l.Pairwise fun b c => p b = true → p c = false) :
    l.find? p = some a ↔ a ∈ l ∧ p a = true := by
  induction l with
  | nil => simp
  | cons b l ih =>
      rw [List.pairwise_cons] at h
      by_cases hb : p b = true
      · rw [List.find?_cons_of_pos hb, Option.some.injEq, List.mem_cons]
        constructor
        · rintro rfl
          exact ⟨Or.inl rfl, hb⟩
        · rintro ⟨rfl | ha, hp⟩
          · rfl
          · exact absurd hp (by simp [h.1 a ha hb])
      · rw [List.find?_cons_of_neg hb, ih h.2, List.mem_cons]
        constructor
        · rintro ⟨ha, hp⟩
          exact ⟨Or.inr ha, hp⟩
        · rintro ⟨rfl | ha, hp⟩
          · exact absurd hp hb
          · exact ⟨ha, hp⟩

/-- Among entries without a name in common at most one has a given name. -/
theorem pairwise_of_disjoint {α : Type} {l : List α} {names : α → List String}
    (h : l.Pairwise fun a b => ∀ name ∈ names a, name ∉ names b) (word : List Char) :
    l.Pairwise fun a b => ((names a).any fun name => name.toList = word) = true →
      ((names b).any fun name => name.toList = word) = false := by
  refine h.imp fun hdisjoint => ?_
  simp only [List.any_eq_true, List.any_eq_false, decide_eq_true_eq]
  rintro ⟨name, hname, rfl⟩ name' hname' heq
  rw [String.toList_inj.1 heq] at hname'
  exact hdisjoint name hname hname'

theorem Kind.ofName?_eq_some_iff {word : List Char} {kind : Kind} :
    Kind.ofName? word = some kind ↔ kind.Named word := by
  unfold Kind.ofName? Kind.Named
  rw [find?_eq_some_iff_of_pairwise (pairwise_of_disjoint Kind.names_disjoint _)]
  simp only [Kind.mem_all, true_and, List.any_eq_true, decide_eq_true_eq]

theorem dayOfWeek?_eq_some_iff {word : List Char} {n : Int} :
    dayOfWeek? word = some n ↔ NamesDay word n := by
  unfold dayOfWeek? NamesDay
  rw [Option.map_eq_some_iff]
  refine exists_congr fun day => ?_
  rw [find?_eq_some_iff_of_pairwise (pairwise_of_disjoint dayNames_disjoint _)]
  simp only [List.any_eq_true, decide_eq_true_eq]
  constructor
  · rintro ⟨⟨hday, hname⟩, rfl⟩; exact ⟨hday, rfl, hname⟩
  · rintro ⟨hday, rfl, hname⟩; exact ⟨⟨hday, hname⟩, rfl⟩

/-! ### Values -/

/-- A rule may name this date: it is a day of its year, which lies between 1900 and 2200, or a day
of a leap year if it has none. -/
def DateValue.IsNameable (v : DateValue) : Prop :=
  (∀ year ∈ v.year, 1900 ≤ year ∧ year ≤ 2200) ∧ (1 ≤ v.month ∧ v.month ≤ 12) ∧
    (1 ≤ v.day ∧ v.day ≤ monthLength (v.year.getD yearlessLeapYear) v.month)

/-- The dates may be the ends of a range: both have a year or neither has, and dates with years do
not run backwards. -/
def DateValue.MayBound (start stop : DateValue) : Prop :=
  start.isFull = stop.isFull ∧ (start.isFull = true → start ≤ stop)

/-- A date: month and day, or year, month and day, with slashes between them. -/
inductive DerivesDate : List Lexeme → DateValue → Prop
  | yearless (m d : Numeral) (h : (DateValue.yearless m.value d.value).IsNameable) :
      DerivesDate [.integer m, .symbol .slash, .integer d] (.yearless m.value d.value)
  | full (y m d : Numeral) (h : (DateValue.full y.value m.value d.value).IsNameable) :
      DerivesDate [.integer y, .symbol .slash, .integer m, .symbol .slash, .integer d]
        (.full y.value m.value d.value)

/-- A number of a dial, or the name of a day of the week on the dial of those. -/
inductive DerivesDialValue (dial : Dial) : List Lexeme → Int → Prop
  | number (n : Numeral) (h : dial.Takes n.value) : DerivesDialValue dial [.integer n] n.value
  | day (word : List Char) (n : Int) (hdial : dial = .daysOfWeek) (h : NamesDay word n) :
      DerivesDialValue dial [.word word] n

/-! ### Arguments -/

/-- The mark between the ends of a range. -/
def rangeMark (halfOpen : Bool) : Symbol := if halfOpen then .rangeHalfOpen else .rangeInclusive

section Argument

variable {α : Type} (value : List Lexeme → α → Prop) (mayBound : α → α → Prop)

/-- A wildcard, a value, or two values as the ends of a range; those of a half-open range differ. -/
inductive DerivesExtent : List Lexeme → Extent α → Prop
  | wildcard : DerivesExtent [.symbol .wildcard] .wildcard
  | value {ls : List Lexeme} {a : α} (h : value ls a) : DerivesExtent ls (.value a)
  | range {ls ms : List Lexeme} {a b : α} (halfOpen : Bool) (ha : value ls a) (hb : value ms b)
      (hne : halfOpen = true → a ≠ b) (hbound : mayBound a b) :
      DerivesExtent (ls ++ .symbol (rangeMark halfOpen) :: ms) (.range a b halfOpen)

/-- Nothing, or an interval behind its mark. -/
inductive DerivesInterval : List Lexeme → Option Nat → Prop
  | absent : DerivesInterval [] none
  | every (n : Numeral) (h : 1 ≤ n.value ∧ n.value ≤ 4294967295) :
      DerivesInterval [.symbol .interval, .integer n] (some n.value.toNat)

/-- An argument.  A wildcard is excluded only with an interval. -/
inductive DerivesArgument : List Lexeme → Argument α → Prop
  | included {ls ms : List Lexeme} {extent : Extent α} {interval : Option Nat}
      (hextent : DerivesExtent value mayBound ls extent) (hinterval : DerivesInterval ms interval) :
      DerivesArgument (ls ++ ms) ⟨false, extent, interval⟩
  | excluded {ls ms : List Lexeme} {extent : Extent α} {interval : Option Nat}
      (hextent : DerivesExtent value mayBound ls extent) (hinterval : DerivesInterval ms interval)
      (hwildcard : extent = .wildcard → interval ≠ none) :
      DerivesArgument (.symbol .not :: (ls ++ ms)) ⟨true, extent, interval⟩

end Argument

/-! ### Lists -/

/-- A comma or nothing. -/
inductive OptionalComma : List Lexeme → Prop
  | absent : OptionalComma []
  | comma : OptionalComma [.symbol .comma]

/-- One or more things, each with an optional comma behind it. -/
inductive DerivesList {α : Type} (thing : List Lexeme → α → Prop) : List Lexeme → List α → Prop
  | last {ls sep : List Lexeme} {a : α} (h : thing ls a) (hsep : OptionalComma sep) :
      DerivesList thing (ls ++ sep) [a]
  | cons {ls sep ms : List Lexeme} {a : α} {as : List α} (h : thing ls a)
      (hsep : OptionalComma sep) (hrest : DerivesList thing ms as) :
      DerivesList thing (ls ++ (sep ++ ms)) (a :: as)

/-! ### Expressions and schedules -/

/-- An argument of dates. -/
abbrev DerivesDateArgument : List Lexeme → Argument DateValue → Prop :=
  DerivesArgument DerivesDate DateValue.MayBound

/-- An argument of numbers on a dial; any two numbers may be the ends of a range. -/
abbrev DerivesDialArgument (dial : Dial) : List Lexeme → Argument Int → Prop :=
  DerivesArgument (DerivesDialValue dial) fun _ _ => True

/-- The name of a kind and arguments of that kind in parentheses. -/
inductive DerivesExpression : List Lexeme → Expression → Prop
  | dates {word : List Char} {ls : List Lexeme} {as : List (Argument DateValue)}
      (hname : Kind.dates.Named word) (h : DerivesList DerivesDateArgument ls as) :
      DerivesExpression (.word word :: .symbol .openParen :: (ls ++ [.symbol .closeParen]))
        (.dates as)
  | dial {dial : Dial} {word : List Char} {ls : List Lexeme} {as : List (Argument Int)}
      (hname : (Kind.dial dial).Named word) (h : DerivesList (DerivesDialArgument dial) ls as) :
      DerivesExpression (.word word :: .symbol .openParen :: (ls ++ [.symbol .closeParen]))
        (.dial dial as)

/-- Expressions in braces, or a loose expression. -/
inductive DerivesItem : List Lexeme → Item → Prop
  | braced {ls : List Lexeme} {es : List Expression} (h : DerivesList DerivesExpression ls es) :
      DerivesItem (.symbol .openBrace :: (ls ++ [.symbol .closeBrace])) (.braced es)
  | loose {ls : List Lexeme} {e : Expression} (h : DerivesExpression ls e) :
      DerivesItem ls (.loose e)

/-- **The lexemes are a schedule.** -/
abbrev DerivesProgram : List Lexeme → Program → Prop := DerivesList DerivesItem

/-! ### First lexemes -/

/-- There is a first lexeme, and the only symbols it can be are those given. -/
def Starts (symbols : List Symbol) (ls : List Lexeme) : Prop :=
  ∃ l rest, ls = l :: rest ∧ ∀ s, l = .symbol s → s ∈ symbols

namespace Starts

variable {symbols symbols' : List Symbol} {ls : List Lexeme}

theorem mono (h : Starts symbols ls) (hsub : symbols ⊆ symbols') : Starts symbols' ls := by
  obtain ⟨l, rest, rfl, hl⟩ := h
  exact ⟨l, rest, rfl, fun s hs => hsub (hl s hs)⟩

theorem append (h : Starts symbols ls) (ms : List Lexeme) : Starts symbols (ls ++ ms) := by
  obtain ⟨l, rest, rfl, hl⟩ := h
  exact ⟨l, rest ++ ms, rfl, hl⟩

theorem head?_ne (h : Starts symbols ls) {s : Symbol} (hs : s ∉ symbols) :
    ls.head? ≠ some (.symbol s) := by
  obtain ⟨l, rest, rfl, hl⟩ := h
  rw [List.head?_cons]
  intro heq
  exact hs (hl s (Option.some.inj heq))

theorem ne_nil (h : Starts symbols ls) : ls ≠ [] := by
  obtain ⟨l, rest, rfl, -⟩ := h
  exact List.cons_ne_nil l rest

end Starts

theorem DerivesDate.starts {ls : List Lexeme} {v : DateValue} (h : DerivesDate ls v) :
    Starts [] ls := by
  cases h <;> exact ⟨_, _, rfl, by simp⟩

theorem DerivesDialValue.starts {dial : Dial} {ls : List Lexeme} {n : Int}
    (h : DerivesDialValue dial ls n) : Starts [] ls := by
  cases h <;> exact ⟨_, _, rfl, by simp⟩

section Argument

variable {α : Type} {value : List Lexeme → α → Prop} {mayBound : α → α → Prop}

/-- Values do not start with a symbol, so an extent starts with no symbol but a wildcard. -/
theorem DerivesExtent.starts (hvalue : ∀ ls a, value ls a → Starts [] ls) {ls : List Lexeme}
    {e : Extent α} (h : DerivesExtent value mayBound ls e) : Starts [.wildcard] ls := by
  cases h with
  | wildcard => exact ⟨_, _, rfl, by simp⟩
  | value ha => exact (hvalue _ _ ha).mono (by simp)
  | range halfOpen ha hb hne hbound => exact ((hvalue _ _ ha).append _).mono (by simp)

theorem DerivesArgument.starts (hvalue : ∀ ls a, value ls a → Starts [] ls) {ls : List Lexeme}
    {a : Argument α} (h : DerivesArgument value mayBound ls a) : Starts [.wildcard, .not] ls := by
  cases h with
  | included he hi => exact ((he.starts hvalue).append _).mono (by simp)
  | excluded he hi hwildcard => exact ⟨_, _, rfl, by simp⟩

end Argument

theorem DerivesExpression.starts {ls : List Lexeme} {e : Expression} (h : DerivesExpression ls e) :
    Starts [] ls := by
  cases h <;> exact ⟨_, _, rfl, by simp⟩

theorem DerivesItem.starts {ls : List Lexeme} {i : Item} (h : DerivesItem ls i) :
    Starts [.openBrace] ls := by
  cases h with
  | braced hes => exact ⟨_, _, rfl, by simp⟩
  | loose he => exact he.starts.mono (by simp)

end Timetable

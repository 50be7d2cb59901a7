/-
**What a schedule means.**

The groups of a schedule are computed by pushing one range after another into groups.  This module
says which groups a schedule means without saying how they are computed, as a judgment on each level
of the syntax, and proves that the groups computed are the ones meant.

On the level of a group the judgment is about all arguments of one kind together, in whichever
expressions they stand: the ranges to include are those of the arguments without an exclusion mark,
in order, the ranges to exclude those of the others.  A dial of the clock without arguments is
pinned to zero, as if the argument `0` were written, if no finer dial has arguments either.

Main definitions:

* `Extent.Means`, `Argument.Means` — the ranges that arguments mean in a domain;
* `Rules.Means` — the rules that arguments of one kind mean together;
* `dateArguments`, `dialArguments` — all arguments of a kind in several expressions;
* `Dial.IsPinned`, `Group.Means` — the group that expressions mean together;
* `Program.Gathers`, `Program.Means` — **the groups that a schedule means**.

Main results:

* `Argument.range_eq_iff`, `Rules.ofArguments_eq_iff` — the range of an argument and the rules of
  several, computed at once, are the ones meant;
* `Group.dates_ofExpressions`, `Group.rules_ofExpressions` — pushing computes these rules;
* `Group.rules_withImpliedDefaults` — the rules of a dial when defaults are implied;
* `Program.groups_eq_iff_means` — **the groups computed for a schedule are the ones it means**, if
  its intervals are positive.
-/

import Mathlib.Data.List.Forall2
import Timetable.Program

set_option relaxedAutoImplicit false
set_option autoImplicit false

namespace Timetable

/-! ### Arguments -/

section Argument

variable {α : Type}

/-- What an argument covers and its interval, if it has one, mean a range from `start` to `stop` in
a domain that begins with `first` and in which `last` gives the last value on the line of a value.
A single value runs to the end of its line if there is an interval. -/
inductive Extent.Means (first : α) (last : α → α) :
    Extent α → Option Nat → (start stop : α) → (halfOpen : Bool) → Prop
  | wildcard (interval : Option Nat) : Means first last .wildcard interval first (last first) false
  | range (start stop : α) (halfOpen : Bool) (interval : Option Nat) :
      Means first last (.range start stop halfOpen) interval start stop halfOpen
  | single (a : α) : Means first last (.value a) none a a false
  | onwards (a : α) (n : Nat) : Means first last (.value a) (some n) a (last a) false

/-- The range that an argument means.  Its interval is one unless the argument says otherwise. -/
def Argument.Means (first : α) (last : α → α) (a : Argument α) (r : Range α) : Prop :=
  Extent.Means first last a.extent a.interval r.start r.stop r.halfOpen ∧
    r.interval = a.interval.getD 1

/-- The rules that arguments mean together: the ranges of those without an exclusion mark are
included and the ranges of the others excluded, in the order of the arguments. -/
def Rules.Means (means : Argument α → Range α → Prop) (as : List (Argument α)) (rs : Rules α) :
    Prop :=
  List.Forall₂ means (as.filter fun a => !a.excluded) rs.included ∧
    List.Forall₂ means (as.filter fun a => a.excluded) rs.excluded

end Argument

/-- The last date that a rule may name on the line of a date: in the year 2200 if the date has a
year, and in any year if it has none. -/
def DateValue.lastLike (v : DateValue) : DateValue :=
  if v.isFull then .full 2200 12 31 else .yearless 12 31

/-- The range that an argument of dates means. -/
def Argument.MeansDates : Argument DateValue → Range DateValue → Prop :=
  Argument.Means (.yearless 1 1) DateValue.lastLike

/-- The range that an argument on a dial means. -/
def Argument.MeansOnDial (d : Dial) : Argument Int → Range Int → Prop :=
  Argument.Means d.low fun _ => d.high

/-! ### Groups -/

/-- All arguments of dates in several expressions. -/
def dateArguments (es : List Expression) : List (Argument DateValue) :=
  es.flatMap fun
    | .dates as => as
    | .dial _ _ => []

/-- All arguments on a dial in several expressions. -/
def dialArguments (d : Dial) (es : List Expression) : List (Argument Int) :=
  es.flatMap fun
    | .dates _ => []
    | .dial d' as => if d' = d then as else []

/-- The expressions pin the dial to zero: it is one of the clock, and they have no arguments on it
or on a finer one. -/
def Dial.IsPinned (es : List Expression) : Dial → Prop
  | .daysOfMonth | .daysOfWeek => False
  | .hours => dialArguments .hours es = [] ∧ dialArguments .minutes es = [] ∧
      dialArguments .seconds es = []
  | .minutes => dialArguments .minutes es = [] ∧ dialArguments .seconds es = []
  | .seconds => dialArguments .seconds es = []

/-- The argument `0`. -/
def Argument.zero : Argument Int := ⟨false, .value 0, none⟩

/-- The group that expressions mean together. -/
structure Group.Means (es : List Expression) (g : Group) : Prop where
  /-- The rules for dates are those of all arguments of dates. -/
  dates : Rules.Means Argument.MeansDates (dateArguments es) g.dates
  /-- The rules for a dial are those of all arguments on it, unless it is pinned. -/
  dial : ∀ d : Dial, ¬d.IsPinned es →
    Rules.Means (Argument.MeansOnDial d) (dialArguments d es) (g.rules d)
  /-- The rules for a pinned dial are those of the argument `0`. -/
  pinned : ∀ d : Dial, d.IsPinned es →
    Rules.Means (Argument.MeansOnDial d) [Argument.zero] (g.rules d)

/-! ### Schedules -/

/-- The expressions of each group of a schedule.  Every group in braces is one; all loose
expressions are one together, at the place of the first. -/
inductive Program.Gathers : Program → List (List Expression) → Prop
  | braced (ess : List (List Expression)) : Gathers (ess.map .braced) ess
  | loose (ess : List (List Expression)) (e : Expression) (rest : Program) :
      Gathers (ess.map .braced ++ .loose e :: rest)
        (ess ++ (e :: rest.filterMap Item.loose?) :: rest.filterMap Item.braced?)

/-- **The groups that a schedule means.** -/
def Program.Means (p : Program) (gs : List Group) : Prop :=
  ∃ ess, p.Gathers ess ∧ List.Forall₂ Group.Means ess gs

/-! ### Computing the rules of one kind -/

theorem Range.of_eq_iff {α : Type} {start stop : α} {halfOpen : Bool} {interval : Nat}
    (h : 0 < interval) {r : Range α} :
    Range.of start stop halfOpen interval = r ↔
      (r.start = start ∧ r.stop = stop ∧ r.halfOpen = halfOpen) ∧ r.interval = interval := by
  constructor
  · intro heq
    rw [← heq]
    exact ⟨⟨rfl, rfl, rfl⟩, Range.interval_of start stop halfOpen h⟩
  · rintro ⟨⟨rfl, rfl, rfl⟩, rfl⟩
    unfold Range.of
    congr
    exact Nat.max_eq_left h

/-- A function computes a relation on lists if it does on their elements. -/
theorem map_eq_iff_forall₂ {α β : Type} {f : α → β} {R : α → β → Prop} {as : List α}
    (h : ∀ a ∈ as, ∀ b, f a = b ↔ R a b) (bs : List β) :
    as.map f = bs ↔ List.Forall₂ R as bs := by
  induction as generalizing bs with
  | nil => rw [List.map_nil, List.forall₂_nil_left_iff, eq_comm]
  | cons a as ih =>
      have htail := ih fun a' ha' => h a' (List.mem_cons_of_mem a ha')
      rw [List.map_cons, List.forall₂_cons_left_iff]
      constructor
      · rintro rfl
        exact ⟨f a, _, (h a (List.mem_cons_self ..) _).1 rfl, (htail _).1 rfl, rfl⟩
      · rintro ⟨b, bs, hb, hbs, rfl⟩
        rw [(h a (List.mem_cons_self ..) b).2 hb, (htail bs).2 hbs]

section Argument

variable {α : Type}

section Extent

variable {first : α} {last : α → α} {start stop : α} {halfOpen : Bool}

theorem Extent.means_wildcard_iff {interval : Option Nat} :
    Extent.Means first last .wildcard interval start stop halfOpen ↔
      start = first ∧ stop = last first ∧ halfOpen = false := by
  constructor
  · intro h
    cases h
    exact ⟨rfl, rfl, rfl⟩
  · rintro ⟨rfl, rfl, rfl⟩
    exact Extent.Means.wildcard interval

theorem Extent.means_range_iff {a b : α} {o : Bool} {interval : Option Nat} :
    Extent.Means first last (.range a b o) interval start stop halfOpen ↔
      start = a ∧ stop = b ∧ halfOpen = o := by
  constructor
  · intro h
    cases h
    exact ⟨rfl, rfl, rfl⟩
  · rintro ⟨rfl, rfl, rfl⟩
    exact Extent.Means.range start stop halfOpen interval

theorem Extent.means_single_iff {a : α} :
    Extent.Means first last (.value a) none start stop halfOpen ↔
      start = a ∧ stop = a ∧ halfOpen = false := by
  constructor
  · intro h
    cases h
    exact ⟨rfl, rfl, rfl⟩
  · rintro ⟨hstart, hstop, hopen⟩
    rw [hstart, hstop, hopen]
    exact Extent.Means.single a

theorem Extent.means_onwards_iff {a : α} {n : Nat} :
    Extent.Means first last (.value a) (some n) start stop halfOpen ↔
      start = a ∧ stop = last a ∧ halfOpen = false := by
  constructor
  · intro h
    cases h
    exact ⟨rfl, rfl, rfl⟩
  · rintro ⟨rfl, rfl, rfl⟩
    exact Extent.Means.onwards start n

end Extent

/-- The range computed for an argument is the one it means, if its domain is on the right line. -/
theorem Argument.range_eq_iff {first high : α} (last : α → α) {a : Argument α}
    (hinterval : a.interval ≠ some 0) (hwildcard : a.extent = .wildcard → high = last first)
    (hvalue : ∀ start, a.extent = .value start → high = last start) (r : Range α) :
    a.range first high = r ↔ a.Means first last r := by
  obtain ⟨excluded, extent, interval⟩ := a
  have hpos : 0 < interval.getD 1 := by
    cases interval with
    | none => decide
    | some n => exact Nat.pos_of_ne_zero fun hn => hinterval (congrArg some hn)
  cases extent with
  | wildcard =>
      rw [hwildcard rfl]
      exact (Range.of_eq_iff hpos).trans (and_congr_left' Extent.means_wildcard_iff.symm)
  | range start stop halfOpen =>
      exact (Range.of_eq_iff hpos).trans (and_congr_left' Extent.means_range_iff.symm)
  | value start =>
      cases interval with
      | none => exact (Range.of_eq_iff hpos).trans (and_congr_left' Extent.means_single_iff.symm)
      | some n =>
          rw [hvalue start rfl]
          exact (Range.of_eq_iff hpos).trans (and_congr_left' Extent.means_onwards_iff.symm)

/-- The rules of several arguments, computed at once. -/
def Rules.ofArguments (range : Argument α → Range α) (as : List (Argument α)) : Rules α :=
  ⟨(as.filter fun a => !a.excluded).map range, (as.filter fun a => a.excluded).map range⟩

/-- **The rules computed for arguments are the ones they mean**, if this is so for their ranges. -/
theorem Rules.ofArguments_eq_iff {range : Argument α → Range α}
    {means : Argument α → Range α → Prop} {as : List (Argument α)}
    (h : ∀ a ∈ as, ∀ r, range a = r ↔ means a r) (rs : Rules α) :
    Rules.ofArguments range as = rs ↔ Rules.Means means as rs := by
  obtain ⟨included, excluded⟩ := rs
  unfold Rules.ofArguments Rules.Means
  rw [Rules.mk.injEq, map_eq_iff_forall₂ fun a ha => h a (List.mem_of_mem_filter ha),
    map_eq_iff_forall₂ fun a ha => h a (List.mem_of_mem_filter ha)]

/-- Pushing one range after another adds the rules computed at once. -/
theorem Rules.foldl_push (range : Argument α → Range α) (as : List (Argument α)) (rs : Rules α) :
    as.foldl (fun rs a => rs.push (range a) a.excluded) rs =
      ⟨rs.included ++ (Rules.ofArguments range as).included,
        rs.excluded ++ (Rules.ofArguments range as).excluded⟩ := by
  induction as generalizing rs with
  | nil => simp [Rules.ofArguments]
  | cons a as ih =>
      rw [List.foldl_cons, ih]
      cases ha : a.excluded <;> simp [Rules.push, Rules.ofArguments, ha]

/-- Only no arguments make no rules. -/
theorem Rules.isEmpty_ofArguments (range : Argument α → Range α) (as : List (Argument α)) :
    (Rules.ofArguments range as).isEmpty = true ↔ as = [] := by
  cases as with
  | nil => simp [Rules.ofArguments, Rules.isEmpty]
  | cons a as => cases ha : a.excluded <;> simp [Rules.ofArguments, Rules.isEmpty, ha]

end Argument

/-! ### Computing a group -/

/-- A fold that never changes a component leaves it as it was. -/
theorem foldl_component_eq {α β γ : Type} (component : β → γ) {f : β → α → β}
    (h : ∀ b a, component (f b a) = component b) (as : List α) (b : β) :
    component (as.foldl f b) = component b := by
  induction as generalizing b with
  | nil => rfl
  | cons a as ih => rw [List.foldl_cons, ih, h]

/-- If each step of a fold folds its own arguments into a component, the fold folds all of them. -/
theorem foldl_component_flatMap {α β γ δ : Type} (component : β → γ) {add : β → δ → β}
    {arguments : δ → List α} {push : γ → α → γ}
    (h : ∀ b d, component (add b d) = (arguments d).foldl push (component b)) (ds : List δ)
    (b : β) :
    component (ds.foldl add b) = (ds.flatMap arguments).foldl push (component b) := by
  induction ds generalizing b with
  | nil => rfl
  | cons d ds ih => rw [List.foldl_cons, ih, h, List.flatMap_cons, List.foldl_append]

namespace Group

theorem rules_pushDates (g : Group) (r : Range DateValue) (exclude : Bool) (d : Dial) :
    (g.pushDates r exclude).rules d = g.rules d := by
  cases d <;> rfl

/-- The rules for dates that expressions give are those of all their arguments of dates. -/
theorem dates_ofExpressions (es : List Expression) :
    (ofExpressions es).dates = Rules.ofArguments Argument.dateRange (dateArguments es) := by
  have hfold : (es.foldl Group.add {}).dates =
      (dateArguments es).foldl (fun rs a => rs.push a.dateRange a.excluded) {} := by
    refine foldl_component_flatMap Group.dates (fun g e => ?_) es {}
    cases e with
    | dates as => exact (List.foldl_hom Group.dates fun _ _ => rfl).symm
    | dial d as => exact foldl_component_eq Group.dates (fun g a => dates_modify g d _) as g
  rw [ofExpressions, hfold, Rules.foldl_push]
  rfl

/-- The rules for a dial that expressions give are those of all their arguments on it. -/
theorem rules_ofExpressions (es : List Expression) (d : Dial) :
    (ofExpressions es).rules d = Rules.ofArguments (·.dialRange d) (dialArguments d es) := by
  have hfold : (es.foldl Group.add {}).rules d =
      (dialArguments d es).foldl (fun rs a => rs.push (a.dialRange d) a.excluded)
        (({} : Group).rules d) := by
    refine foldl_component_flatMap (Group.rules · d) (fun g e => ?_) es {}
    cases e with
    | dates as =>
        exact foldl_component_eq (Group.rules · d) (fun g a => rules_pushDates g _ _ d) as g
    | dial d' as =>
        dsimp only
        by_cases hd : d' = d
        · subst hd
          rw [if_pos rfl]
          exact (List.foldl_hom (Group.rules · d') fun g a =>
            (rules_modify_self g d' (·.push _ _)).symm).symm
        · rw [if_neg hd]
          exact foldl_component_eq (Group.rules · d)
            (fun g a => rules_modify_of_ne g (Ne.symm hd) _) as g
  have hempty : ({} : Group).rules d = {} := by cases d <;> rfl
  rw [ofExpressions, hfold, Rules.foldl_push, hempty]
  rfl

/-- Implying defaults changes the rules of the dials that the expressions pin to zero, and no
others. -/
theorem rules_withImpliedDefaults {es : List Expression} {g : Group}
    (h : ∀ d, (g.rules d).isEmpty = true ↔ dialArguments d es = []) (d : Dial) :
    (d.IsPinned es → g.withImpliedDefaults.rules d = { included := [Range.single 0] }) ∧
      (¬d.IsPinned es → g.withImpliedDefaults.rules d = g.rules d) := by
  have hseconds := h .seconds
  have hminutes := h .minutes
  have hhours := h .hours
  simp only [Group.rules] at hseconds hminutes hhours
  unfold withImpliedDefaults
  -- a pinned dial pins the finer ones too, so the cases go up from the seconds
  simp only [Bool.not_eq_true', ← Bool.not_eq_true, hseconds, hminutes, hhours, ite_not]
  by_cases hs : dialArguments .seconds es = []
  · by_cases hm : dialArguments .minutes es = []
    · by_cases hh : dialArguments .hours es = []
      · cases d <;> simp [Dial.IsPinned, Group.rules, hs, hm, hh]
      · cases d <;> simp [Dial.IsPinned, Group.rules, hs, hm, hh]
    · cases d <;> simp [Dial.IsPinned, Group.rules, hs, hm]
  · cases d <;> simp [Dial.IsPinned, Group.rules, hs]

theorem dates_withImpliedDefaults (g : Group) : g.withImpliedDefaults.dates = g.dates := by
  unfold withImpliedDefaults
  split
  · rfl
  · split
    · rfl
    · split <;> rfl

theorem eq_iff {g h : Group} : g = h ↔ g.dates = h.dates ∧ ∀ d, g.rules d = h.rules d := by
  constructor
  · rintro rfl
    exact ⟨rfl, fun _ => rfl⟩
  · rintro ⟨hdates, hrules⟩
    have hmonth := hrules .daysOfMonth
    have hweek := hrules .daysOfWeek
    have hhours := hrules .hours
    have hminutes := hrules .minutes
    have hseconds := hrules .seconds
    cases g
    cases h
    simp_all [Group.rules]

end Group

/-! ### Computing a schedule -/

/-- No interval in the expression is zero. -/
def Expression.HasPositiveIntervals : Expression → Prop
  | .dates as => ∀ a ∈ as, a.interval ≠ some 0
  | .dial _ as => ∀ a ∈ as, a.interval ≠ some 0

/-- An argument of dates stands in one of the expressions. -/
theorem exists_of_mem_dateArguments {es : List Expression} {a : Argument DateValue}
    (ha : a ∈ dateArguments es) : ∃ as, .dates as ∈ es ∧ a ∈ as := by
  obtain ⟨e, he, hae⟩ := List.mem_flatMap.1 ha
  cases e with
  | dates as => exact ⟨as, he, hae⟩
  | dial d as => cases hae

/-- An argument on a dial stands in one of the expressions. -/
theorem exists_of_mem_dialArguments {es : List Expression} {d : Dial} {a : Argument Int}
    (ha : a ∈ dialArguments d es) : ∃ as, .dial d as ∈ es ∧ a ∈ as := by
  obtain ⟨e, he, hae⟩ := List.mem_flatMap.1 ha
  cases e with
  | dates as => cases hae
  | dial d' as =>
      dsimp only at hae
      split at hae
      · rename_i hd
        exact ⟨as, hd ▸ he, hae⟩
      · cases hae

theorem interval_of_mem_dateArguments {es : List Expression}
    (h : ∀ e ∈ es, e.HasPositiveIntervals) {a : Argument DateValue} (ha : a ∈ dateArguments es) :
    a.interval ≠ some 0 := by
  obtain ⟨as, he, hae⟩ := exists_of_mem_dateArguments ha
  exact h _ he a hae

theorem interval_of_mem_dialArguments {es : List Expression}
    (h : ∀ e ∈ es, e.HasPositiveIntervals) {d : Dial} {a : Argument Int}
    (ha : a ∈ dialArguments d es) : a.interval ≠ some 0 := by
  obtain ⟨as, he, hae⟩ := exists_of_mem_dialArguments ha
  exact h _ he a hae

theorem Argument.dateRange_eq_iff {a : Argument DateValue} (h : a.interval ≠ some 0)
    (r : Range DateValue) : a.dateRange = r ↔ a.MeansDates r := by
  refine Argument.range_eq_iff DateValue.lastLike h ?_ ?_ r
  · intro hextent
    rw [hextent]
    rfl
  · intro start hextent
    rw [hextent]
    rfl

theorem Argument.dialRange_eq_iff {a : Argument Int} (h : a.interval ≠ some 0) (d : Dial)
    (r : Range Int) : a.dialRange d = r ↔ a.MeansOnDial d r :=
  Argument.range_eq_iff (fun _ => d.high) h (fun _ => rfl) (fun _ _ => rfl) r

/-- **The group computed for expressions is the one they mean.** -/
theorem Group.ofExpressions_eq_iff_means {es : List Expression}
    (h : ∀ e ∈ es, e.HasPositiveIntervals) (g : Group) :
    (Group.ofExpressions es).withImpliedDefaults = g ↔ Group.Means es g := by
  have hempty (d : Dial) :
      ((Group.ofExpressions es).rules d).isEmpty = true ↔ dialArguments d es = [] := by
    rw [Group.rules_ofExpressions]
    exact Rules.isEmpty_ofArguments _ _
  have hdates : (Group.ofExpressions es).dates = g.dates ↔
      Rules.Means Argument.MeansDates (dateArguments es) g.dates := by
    rw [Group.dates_ofExpressions]
    exact Rules.ofArguments_eq_iff
      (fun a ha => Argument.dateRange_eq_iff (interval_of_mem_dateArguments h ha)) _
  have hdial (d : Dial) : (Group.ofExpressions es).rules d = g.rules d ↔
      Rules.Means (Argument.MeansOnDial d) (dialArguments d es) (g.rules d) := by
    rw [Group.rules_ofExpressions]
    exact Rules.ofArguments_eq_iff
      (fun a ha => Argument.dialRange_eq_iff (interval_of_mem_dialArguments h ha) d) _
  have hzero (d : Dial) : { included := [Range.single 0] } = g.rules d ↔
      Rules.Means (Argument.MeansOnDial d) [Argument.zero] (g.rules d) := by
    have hrules : Rules.ofArguments (·.dialRange d) [Argument.zero] =
        { included := [Range.single 0] } := rfl
    rw [← hrules]
    refine Rules.ofArguments_eq_iff (fun a ha => ?_) _
    rw [List.mem_singleton.1 ha]
    exact Argument.dialRange_eq_iff (by decide) d
  rw [Group.eq_iff, Group.dates_withImpliedDefaults, hdates]
  constructor
  · rintro ⟨hd, hrules⟩
    refine ⟨hd, ?_, ?_⟩
    · intro d hpinned
      rw [← hdial, ← hrules d, (Group.rules_withImpliedDefaults hempty d).2 hpinned]
    · intro d hpinned
      rw [← hzero, ← hrules d, (Group.rules_withImpliedDefaults hempty d).1 hpinned]
  · intro hmeans
    refine ⟨hmeans.dates, fun d => ?_⟩
    by_cases hpinned : d.IsPinned es
    · rw [(Group.rules_withImpliedDefaults hempty d).1 hpinned]
      exact (hzero d).2 (hmeans.pinned d hpinned)
    · rw [(Group.rules_withImpliedDefaults hempty d).2 hpinned]
      exact (hdial d).2 (hmeans.dial d hpinned)

namespace Program

/-- **The expressions are gathered into groups as they are meant to be.** -/
theorem gathered_eq_iff {p : Program} {ess : List (List Expression)} :
    gathered p = ess ↔ p.Gathers ess := by
  constructor
  · rintro rfl
    induction p with
    | nil => exact Gathers.braced []
    | cons i p ih =>
        cases i with
        | loose e => exact Gathers.loose [] e p
        | braced es =>
            rw [gathered]
            -- a group in braces stays in front of whatever the rest is gathered to
            generalize gathered p = ess at ih
            cases ih with
            | braced => exact Gathers.braced (es :: ess)
            | loose ess e rest => exact Gathers.loose (es :: ess) e rest
  · intro h
    cases h with
    | braced =>
        induction ess with
        | nil => rfl
        | cons es ess ih => exact congrArg (es :: ·) ih
    | loose ess e rest =>
        induction ess with
        | nil => rfl
        | cons es ess ih => exact congrArg (es :: ·) ih

/-- There is a group wherever there is an item. -/
theorem gathered_ne_nil {p : Program} (h : p ≠ []) : gathered p ≠ [] := by
  cases p with
  | nil => exact absurd rfl h
  | cons i p => cases i <;> exact List.cons_ne_nil _ _

/-- Gathering moves expressions but adds none. -/
theorem exists_mem_of_mem_gathered {p : Program} {es : List Expression} (hes : es ∈ gathered p)
    {e : Expression} (he : e ∈ es) : .loose e ∈ p ∨ ∃ es', .braced es' ∈ p ∧ e ∈ es' := by
  induction p with
  | nil => cases hes
  | cons i p ih =>
      cases i with
      | loose e' =>
          rw [gathered, List.mem_cons] at hes
          rcases hes with rfl | hes
          · rcases List.mem_cons.1 he with rfl | he
            · exact Or.inl (List.mem_cons_self ..)
            · obtain ⟨i, hi, hloose⟩ := List.mem_filterMap.1 he
              cases i with
              | loose => cases hloose; exact Or.inl (List.mem_cons_of_mem _ hi)
              | braced => cases hloose
          · obtain ⟨i, hi, hbraced⟩ := List.mem_filterMap.1 hes
            cases i with
            | loose => cases hbraced
            | braced => cases hbraced; exact Or.inr ⟨_, List.mem_cons_of_mem _ hi, he⟩
      | braced es' =>
          rw [gathered, List.mem_cons] at hes
          rcases hes with rfl | hes
          · exact Or.inr ⟨es, List.mem_cons_self .., he⟩
          · rcases ih hes with hloose | ⟨es'', hbraced, he''⟩
            · exact Or.inl (List.mem_cons_of_mem _ hloose)
            · exact Or.inr ⟨es'', List.mem_cons_of_mem _ hbraced, he''⟩

/-- **The groups computed for a schedule are the ones it means.** -/
theorem groups_eq_iff_means {p : Program}
    (h : ∀ es ∈ gathered p, ∀ e ∈ es, e.HasPositiveIntervals) (gs : List Group) :
    p.groups = gs ↔ p.Means gs := by
  unfold groups Means
  simp only [← gathered_eq_iff, exists_eq_left']
  exact map_eq_iff_forall₂ (fun es hes => Group.ofExpressions_eq_iff_means (h es hes)) gs

end Program

end Timetable

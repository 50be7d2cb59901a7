/-
**What a text means is well formed.**

The tests of a group ask nothing about the ranges they are given; whatever could be wrong with a range
has to be kept out when it is read.  A range has its ends from several places: from the values
written, from the ends of the domain where a wildcard or an interval leaves an end out, and from the
rules implied for the clock.  This module proves that all of them yield well-formed ranges, and that
a value written is the value meant, whatever its length: the numbers that are let through fit into
the words that hold them.

Main definitions:

* `Domain` — what has to be known about the values of a kind;
* `FitsWord`, `Group.FitsWords` — numbers that are not changed by being held in a word;
* `Group.WrittenIn` — **every range is that of an argument written in the lexemes**, or implied.

Main results:

* `DerivesArgument.wellFormed` — the range that an argument means is well formed;
* `Group.WrittenIn.wellFormed`, `Group.WellFormed.fitsWords` — so are groups written in lexemes, and
  their numbers fit;
* `writtenIn_of_groupsOf`, `wellFormed_of_groupsOf` — both hold of the groups that a text means;
* `groupsOf_eq_ok_wellFormed` — **the groups that a text means are well formed, exactly as written**.
-/

import Mathlib.Algebra.Ring.Int.Defs
import Mathlib.Algebra.Ring.Nat
import Timetable.Proofs.Language
import Timetable.Proofs.WellFormed

set_option relaxedAutoImplicit false
set_option autoImplicit false

namespace Timetable

/-! ### Domains -/

/-- What has to be known about the values of a kind: those that are written are valid, and so are
the ends of the domain, each with all values from which a range may run up to it. -/
structure Domain {α : Type} (value : List Lexeme → α → Prop) (mayBound : α → α → Prop)
    (valid : α → Prop) (first : α) (last : α → α) : Prop where
  valid_value : ∀ {ls a}, value ls a → valid a
  valid_first : valid first
  valid_last : ∀ {a}, valid a → valid (last a)
  bound_self : ∀ {a}, valid a → mayBound a a
  bound_last : ∀ {a}, valid a → mayBound a (last a)

section Argument

variable {α : Type} {value : List Lexeme → α → Prop} {mayBound : α → α → Prop} {valid : α → Prop}
  {first : α} {last : α → α}

theorem DerivesInterval.le {ls : List Lexeme} {interval : Option Nat}
    (h : DerivesInterval ls interval) : interval.getD 1 ≤ 4294967295 := by
  cases h with
  | absent => decide
  | every n hn =>
      rw [Option.getD_some]
      omega

theorem Range.wellFormed_of_ends {r : Range α} {a b : α} {halfOpen : Bool}
    (hends : r.start = a ∧ r.stop = b ∧ r.halfOpen = halfOpen) (ha : valid a) (hb : valid b)
    (hbound : mayBound a b) (hdiffer : halfOpen = true → a ≠ b) (hle : r.interval ≤ 4294967295) :
    r.WellFormed valid mayBound := by
  obtain ⟨rfl, rfl, rfl⟩ := hends
  exact ⟨ha, hb, hbound, hdiffer, hle⟩

/-- The range meant by values that are written, with an interval or without, is well formed. -/
theorem DerivesExtent.wellFormed (hdomain : Domain value mayBound valid first last)
    {ls ms : List Lexeme} {extent : Extent α} {interval : Option Nat}
    (h : DerivesExtent value mayBound ls extent) (hinterval : DerivesInterval ms interval)
    {r : Range α} (hends : extent.Means first last interval r.start r.stop r.halfOpen)
    (hr : r.interval = interval.getD 1) : r.WellFormed valid mayBound := by
  have hle : r.interval ≤ 4294967295 := hr ▸ hinterval.le
  cases h with
  | wildcard =>
      have hfirst := hdomain.valid_first
      exact Range.wellFormed_of_ends (Extent.means_wildcard_iff.1 hends) hfirst
        (hdomain.valid_last hfirst) (hdomain.bound_last hfirst) nofun hle
  | value ha =>
      have hvalid := hdomain.valid_value ha
      cases interval with
      | none =>
          exact Range.wellFormed_of_ends (Extent.means_single_iff.1 hends) hvalid hvalid
            (hdomain.bound_self hvalid) nofun hle
      | some n =>
          exact Range.wellFormed_of_ends (Extent.means_onwards_iff.1 hends) hvalid
            (hdomain.valid_last hvalid) (hdomain.bound_last hvalid) nofun hle
  | range halfOpen ha hb hne hbound =>
      have hstart := hdomain.valid_value ha
      have hstop := hdomain.valid_value hb
      exact Range.wellFormed_of_ends (Extent.means_range_iff.1 hends) hstart hstop hbound hne hle

/-- **The range that an argument means is well formed.** -/
theorem DerivesArgument.wellFormed (hdomain : Domain value mayBound valid first last)
    {ls : List Lexeme} {a : Argument α} (h : DerivesArgument value mayBound ls a) {r : Range α}
    (hr : a.Means first last r) : r.WellFormed valid mayBound := by
  cases h with
  | included hextent hinterval => exact hextent.wellFormed hdomain hinterval hr.1 hr.2
  | excluded hextent hinterval _ => exact hextent.wellFormed hdomain hinterval hr.1 hr.2

end Argument

/-! ### The two sorts of domain -/

theorem DerivesDate.isNameable {ls : List Lexeme} {v : DateValue} (h : DerivesDate ls v) :
    v.IsNameable := by
  cases h with
  | yearless m d h => exact h
  | full y m d h => exact h

theorem DerivesDialValue.takes {d : Dial} {ls : List Lexeme} {n : Int}
    (h : DerivesDialValue d ls n) : d.Takes n := by
  cases h with
  | number n h => exact h
  | day word n hdial h =>
      obtain ⟨day, hday, rfl, -⟩ := h
      have hall : ∀ day ∈ dayNames, Dial.daysOfWeek.Takes day.1 := by decide
      rw [hdial]
      exact hall day hday

theorem DateValue.lastLike_isNameable (v : DateValue) : v.lastLike.IsNameable := by
  unfold DateValue.lastLike
  split <;> decide

theorem DateValue.isFull_lastLike (v : DateValue) : v.lastLike.isFull = v.isFull := by
  unfold DateValue.lastLike
  split
  · rename_i h; rw [h]; rfl
  · rename_i h; rw [Bool.eq_false_iff.2 h]; rfl

/-- Of two dates of the same sort one comes no later if no part of it is greater. -/
theorem DateValue.le_of_parts {v w : DateValue} (hfull : v.isFull = w.isFull)
    (hyear : ∀ y ∈ v.year, ∀ z ∈ w.year, y ≤ z) (hmonth : v.month ≤ w.month)
    (hday : v.day ≤ w.day) : v ≤ w := by
  have hinYear : (compareInYear v w).isLE = true :=
    Ordering.isLE_then_iff_and.2
      ⟨Int.isLE_compare.2 hmonth, Or.inr (Int.isLE_compare.2 hday)⟩
  have hsome {o : Ordering} (h : o.isLE = true) : some o = some .lt ∨ some o = some .eq := by
    cases o <;> simp_all
  rw [le_def]
  unfold compare?
  unfold isFull at hfull
  rcases hv : v.year with _ | y <;> rcases hw : w.year with _ | z
  · exact hsome hinYear
  · rw [hv, hw] at hfull; cases hfull
  · rw [hv, hw] at hfull; cases hfull
  · have hle : (compare y z).isLE = true := Int.isLE_compare.2 (hyear y hv z hw)
    exact hsome (Ordering.isLE_then_iff_and.2 ⟨hle, Or.inr hinYear⟩)

theorem DateValue.le_self (v : DateValue) : v ≤ v := by
  refine le_of_parts rfl (fun y hy z hz => ?_) (Int.le_refl _) (Int.le_refl _)
  exact Int.le_of_eq (Option.some.inj (hy.symm.trans hz))

/-- No date that a rule may name comes after the last one on its line. -/
theorem DateValue.IsNameable.le_lastLike {v : DateValue} (h : v.IsNameable) : v ≤ v.lastLike := by
  obtain ⟨hyear, ⟨-, hmonth⟩, -, hday⟩ := h
  have hlong := monthLength_le (v.year.getD yearlessLeapYear) v.month
  refine le_of_parts v.isFull_lastLike.symm (fun y hy z hz => ?_) ?_ ?_
  · have hle := (hyear y hy).2
    unfold lastLike at hz
    split at hz
    · cases hz; exact hle
    · cases hz
  · unfold lastLike; split <;> exact hmonth
  · unfold lastLike; split <;> exact Int.le_trans hday hlong

theorem domain_dates :
    Domain DerivesDate DateValue.MayBound DateValue.IsNameable (.yearless 1 1)
      DateValue.lastLike where
  valid_value := DerivesDate.isNameable
  valid_first := by decide
  valid_last := fun {v} _ => v.lastLike_isNameable
  bound_self := fun {v} _ => ⟨rfl, fun _ => v.le_self⟩
  bound_last := fun {v} h => ⟨v.isFull_lastLike.symm, fun _ => h.le_lastLike⟩

theorem domain_dial (d : Dial) :
    Domain (DerivesDialValue d) (fun _ _ => True) d.Takes d.low fun _ => d.high where
  valid_value := DerivesDialValue.takes
  valid_first := by cases d <;> decide
  valid_last := fun _ => by cases d <;> decide
  bound_self := fun _ => trivial
  bound_last := fun _ => trivial

/-! ### Groups as written -/

theorem Rules.Forall.imp {α : Type} {p q : Range α → Prop} {rs : Rules α} (h : rs.Forall p)
    (hpq : ∀ r, p r → q r) : rs.Forall q :=
  ⟨fun r hr => hpq r (h.1 r hr), fun r hr => hpq r (h.2 r hr)⟩

/-- Every range of a group is that of an argument written in the lexemes; only the clock may also have
the range of the number zero, which is implied. -/
structure Group.WrittenIn (ls : List Lexeme) (g : Group) : Prop where
  dates : g.dates.Forall fun r =>
    ∃ ms a, ms <:+: ls ∧ DerivesDateArgument ms a ∧ a.MeansDates r
  dial : ∀ d : Dial, (g.rules d).Forall fun r =>
    (∃ ms a, ms <:+: ls ∧ DerivesDialArgument d ms a ∧ a.MeansOnDial d r) ∨
      d ∈ [Dial.hours, .minutes, .seconds] ∧ r = Range.single 0

section Means

variable {α : Type} {means : Argument α → Range α → Prop} {as : List (Argument α)} {rs : Rules α}

theorem exists_of_forall₂ {β : Type} {R : α → β → Prop} {as : List α} {bs : List β}
    (h : List.Forall₂ R as bs) {b : β} (hb : b ∈ bs) : ∃ a ∈ as, R a b := by
  induction h with
  | nil => cases hb
  | cons hR _ ih =>
      rcases List.mem_cons.1 hb with rfl | hb
      · exact ⟨_, List.mem_cons_self .., hR⟩
      · obtain ⟨a, ha, hab⟩ := ih hb
        exact ⟨a, List.mem_cons_of_mem _ ha, hab⟩

/-- Every range of rules is that of an argument. -/
theorem Rules.Means.forall_exists (h : Rules.Means means as rs) :
    rs.Forall fun r => ∃ a ∈ as, means a r := by
  constructor
  · intro r hr
    obtain ⟨a, ha, har⟩ := exists_of_forall₂ h.1 hr
    exact ⟨a, List.mem_of_mem_filter ha, har⟩
  · intro r hr
    obtain ⟨a, ha, har⟩ := exists_of_forall₂ h.2 hr
    exact ⟨a, List.mem_of_mem_filter ha, har⟩

/-- Only no arguments mean no rules. -/
theorem Rules.Means.eq_nil_of_isEmpty (h : Rules.Means means as rs) (hempty : rs.isEmpty = true) :
    as = [] := by
  obtain ⟨hincluded, hexcluded⟩ := h
  unfold Rules.isEmpty at hempty
  rw [Bool.and_eq_true, List.isEmpty_iff, List.isEmpty_iff] at hempty
  rw [hempty.1, List.forall₂_nil_right_iff, List.filter_eq_nil_iff] at hincluded
  rw [hempty.2, List.forall₂_nil_right_iff, List.filter_eq_nil_iff] at hexcluded
  refine List.eq_nil_iff_forall_not_mem.2 fun a ha => ?_
  have hnot := hincluded a ha
  have hmarked := hexcluded a ha
  cases hmark : a.excluded <;> simp_all

end Means

theorem Argument.zero_meansOnDial {d : Dial} {r : Range Int}
    (h : Argument.zero.MeansOnDial d r) : r = Range.single 0 :=
  ((Argument.dialRange_eq_iff (by decide) d r).2 h).symm

theorem Dial.IsPinned.mem_clock {es : List Expression} {d : Dial} (h : d.IsPinned es) :
    d ∈ [Dial.hours, .minutes, .seconds] := by
  cases d with
  | daysOfMonth => cases h
  | daysOfWeek => cases h
  | hours | minutes | seconds => decide

namespace Group

variable {es : List Expression} {g : Group} {ls : List Lexeme}

/-- **The group that written expressions mean is written**, apart from what is implied. -/
theorem Means.writtenIn (h : Group.Means es g)
    (hes : ∀ e ∈ es, ∃ ms, ms <:+: ls ∧ DerivesExpression ms e) : g.WrittenIn ls where
  dates := by
    refine h.dates.forall_exists.imp fun r => ?_
    rintro ⟨a, ha, hmeans⟩
    obtain ⟨as, he, hae⟩ := exists_of_mem_dateArguments ha
    obtain ⟨ms, hms, hexpression⟩ := hes _ he
    obtain ⟨ns, hns, hargument⟩ := hexpression.exists_dateArgument hae
    exact ⟨ns, a, hns.trans hms, hargument, hmeans⟩
  dial d := by
    by_cases hpinned : d.IsPinned es
    · refine (h.pinned d hpinned).forall_exists.imp fun r => ?_
      rintro ⟨a, ha, hmeans⟩
      rw [List.mem_singleton.1 ha] at hmeans
      exact Or.inr ⟨hpinned.mem_clock, Argument.zero_meansOnDial hmeans⟩
    · refine (h.dial d hpinned).forall_exists.imp fun r => ?_
      rintro ⟨a, ha, hmeans⟩
      obtain ⟨as, he, hae⟩ := exists_of_mem_dialArguments ha
      obtain ⟨ms, hms, hexpression⟩ := hes _ he
      obtain ⟨ns, hns, hargument⟩ := hexpression.exists_dialArgument hae
      exact Or.inl ⟨ns, a, hns.trans hms, hargument, hmeans⟩

/-- There are always rules for the seconds, if only implied ones. -/
theorem Means.seconds_isEmpty (h : Group.Means es g) : g.seconds.isEmpty = false := by
  rw [Bool.eq_false_iff]
  intro hempty
  by_cases hpinned : Dial.IsPinned es .seconds
  · exact absurd ((h.pinned .seconds hpinned).eq_nil_of_isEmpty hempty) (List.cons_ne_nil _ _)
  · exact hpinned ((h.dial .seconds hpinned).eq_nil_of_isEmpty hempty)

/-- **Written groups are well formed.** -/
theorem WrittenIn.wellFormed (h : g.WrittenIn ls) : g.WellFormed where
  dates := h.dates.imp fun _ ⟨_, _, _, hargument, hmeans⟩ =>
    hargument.wellFormed domain_dates hmeans
  dial d := by
    refine (h.dial d).imp fun r => ?_
    rintro (⟨ms, a, -, hargument, hmeans⟩ | ⟨hd, rfl⟩)
    · exact hargument.wellFormed (domain_dial d) hmeans
    · have hzero : ∀ d ∈ [Dial.hours, .minutes, .seconds],
          (Range.single 0).WellFormedOnDial d := by decide
      exact hzero d hd

end Group

/-! ### Numbers in words -/

/-- The number is not changed by being held in a word of so many bits, in two's complement. -/
def FitsWord (bits : Nat) (n : Int) : Prop := (BitVec.ofInt bits n).toInt = n

theorem fitsWord_of_bounds (bits : Nat) {n : Int} (h : -(2 ^ bits : Int) ≤ n)
    (h' : n < 2 ^ bits) : FitsWord (bits + 1) n := by
  unfold FitsWord
  rw [BitVec.toInt_ofInt]
  apply Int.bmod_eq_of_le
  · rw [Nat.pow_succ]; push_cast; omega
  · rw [Nat.pow_succ]; push_cast; omega

/-- The year fits into 16 bits, the month and the day into 8. -/
def DateValue.FitsWords (v : DateValue) : Prop :=
  (∀ year ∈ v.year, FitsWord 16 year) ∧ FitsWord 8 v.month ∧ FitsWord 8 v.day

/-- Both ends of the range fit, and its interval is a positive number of 32 bits. -/
def Range.FitsWords {α : Type} (fits : α → Prop) (r : Range α) : Prop :=
  fits r.start ∧ fits r.stop ∧ 1 ≤ r.interval ∧ r.interval < 2 ^ 32

/-- All numbers of the group fit into the words that hold them: those on a dial into 32 bits. -/
structure Group.FitsWords (g : Group) : Prop where
  dates : g.dates.Forall (Range.FitsWords DateValue.FitsWords)
  dial : ∀ d : Dial, (g.rules d).Forall (Range.FitsWords (FitsWord 32))

theorem DateValue.IsNameable.fitsWords {v : DateValue} (h : v.IsNameable) : v.FitsWords := by
  obtain ⟨hyear, hmonth, hday⟩ := h
  have hlong := monthLength_le (v.year.getD yearlessLeapYear) v.month
  refine ⟨fun year hy => ?_, ?_, ?_⟩
  · have := hyear year hy
    exact fitsWord_of_bounds 15 (by omega) (by omega)
  · exact fitsWord_of_bounds 7 (by omega) (by omega)
  · exact fitsWord_of_bounds 7 (by omega) (by omega)

theorem Dial.Takes.fitsWord {d : Dial} {n : Int} (h : d.Takes n) : FitsWord 32 n := by
  have := takes_bounds h
  exact fitsWord_of_bounds 31 (by omega) (by omega)

theorem Range.WellFormed.fitsWords {α : Type} {valid : α → Prop} {mayBound : α → α → Prop}
    {fits : α → Prop} {r : Range α} (h : r.WellFormed valid mayBound)
    (hfits : ∀ a, valid a → fits a) : r.FitsWords fits :=
  ⟨hfits _ h.start, hfits _ h.stop, r.interval_pos, by have := h.interval; omega⟩

/-- **The numbers of a well-formed group fit into the words that hold them.** -/
theorem Group.WellFormed.fitsWords {g : Group} (h : g.WellFormed) : g.FitsWords where
  dates := h.dates.imp fun _ hr => hr.fitsWords fun _ => DateValue.IsNameable.fitsWords
  dial d := (h.dial d).imp fun _ hr => hr.fitsWords fun _ => Dial.Takes.fitsWord

/-! ### Texts -/

theorem DerivesList.ne_nil {α : Type} {thing : List Lexeme → α → Prop} {ls : List Lexeme}
    {as : List α} (h : DerivesList thing ls as) : as ≠ [] := by
  cases h <;> exact List.cons_ne_nil _ _

section Text

variable {text : String} {gs : List Group}

/-- What a text means are groups written in its lexemes with rules for seconds, at least one. -/
theorem writtenIn_of_groupsOf (h : groupsOf text = .ok gs) :
    gs ≠ [] ∧ ∀ g ∈ gs, g.seconds.isEmpty = false ∧ g.WrittenIn (Scan.ofText text).lexemes := by
  obtain ⟨p, hread, rfl⟩ := groupsOf_eq_ok_iff_read.1 h
  obtain ⟨-, hderives⟩ := Program.read_eq_ok_iff.1 hread
  refine ⟨mt List.map_eq_nil_iff.1 (Program.gathered_ne_nil hderives.ne_nil), fun g hg => ?_⟩
  obtain ⟨es, hes, hg⟩ := List.mem_map.1 hg
  have hmeans := (Group.ofExpressions_eq_iff_means (hderives.hasPositiveIntervals es hes) g).1 hg
  exact ⟨hmeans.seconds_isEmpty,
    hmeans.writtenIn fun e he => hderives.exists_infix_of_mem_gathered hes he⟩

/-- What a text means are well-formed groups with rules for seconds, at least one. -/
theorem wellFormed_of_groupsOf (h : groupsOf text = .ok gs) :
    gs ≠ [] ∧ ∀ g ∈ gs, g.seconds.isEmpty = false ∧ g.WellFormed :=
  (writtenIn_of_groupsOf h).imp_right fun hgood g hg => (hgood g hg).imp_right (·.wellFormed)

theorem Schedule.ofText_eq_ok_iff {s : Schedule} :
    ofText text = .ok s ↔ s.source = text ∧ groupsOf text = .ok s.groups := by
  unfold ofText
  cases groupsOf text with
  | error e => simp [Except.map]
  | ok gs =>
      obtain ⟨source, groups⟩ := s
      simp [Except.map, eq_comm]

/-- The groups of a schedule that was read are well formed. -/
theorem Schedule.wellFormed_of_ofText {s : Schedule} {g : Group} (h : ofText text = .ok s)
    (hg : g ∈ s.groups) : g.WellFormed :=
  ((wellFormed_of_groupsOf (ofText_eq_ok_iff.1 h).2).2 g hg).2

end Text

/-- **The groups that a text means are well formed, exactly as written.**  There is a group, and each
has rules for the seconds and only well-formed ranges.  The groups are those meant by a schedule that
the lexemes of the text derive, in which every numeral has its exact value, and all numbers fit into
the words that hold them, so that none is cut off. -/
theorem groupsOf_eq_ok_wellFormed {text : String} {gs : List Group} (h : groupsOf text = .ok gs) :
    gs ≠ [] ∧
      (∀ g ∈ gs, g.seconds.isEmpty = false ∧ g.WellFormed ∧
        g.WrittenIn (Scan.ofText text).lexemes ∧ g.FitsWords) ∧
      ∃ p, DerivesProgram (Scan.ofText text).lexemes p ∧ p.Means gs := by
  obtain ⟨hne, hgood⟩ := writtenIn_of_groupsOf h
  refine ⟨hne, fun g hg => ?_, ?_⟩
  · obtain ⟨hseconds, hwritten⟩ := hgood g hg
    exact ⟨hseconds, hwritten.wellFormed, hwritten, hwritten.wellFormed.fitsWords⟩
  · obtain ⟨p, hread, hgroups⟩ := groupsOf_eq_ok_iff_read.1 h
    obtain ⟨-, hderives⟩ := Program.read_eq_ok_iff.1 hread
    exact ⟨p, hderives, (Program.groups_eq_iff_means hderives.hasPositiveIntervals _).1 hgroups⟩

/-- Zeros in front, days counted back, names of days, ends left open on both lines of dates, the
longest interval, a loose expression between groups and implied seconds. -/
theorem groupsOf_eq_ok_wellFormed_mixed :
    let text := "{dom(!-31..0031) date(2/29%7, 2196/2/29%4294967295)}, m(007..<3), {dow(!fri%2) s(*)}"
    let gs : List Group :=
      [{ dates.included := [Range.of (.yearless 2 29) (.yearless 12 31) false 7,
           Range.of (.full 2196 2 29) (.full 2200 12 31) false 4294967295]
         daysOfMonth.excluded := [Range.of (-31) 31 false 1]
         hours.included := [Range.single 0]
         minutes.included := [Range.single 0]
         seconds.included := [Range.single 0] },
       { minutes.included := [Range.of 7 3 true 1]
         seconds.included := [Range.single 0] },
       { daysOfWeek.excluded := [Range.of 6 7 false 2]
         seconds.included := [Range.of 0 59 false 1] }]
    groupsOf text = .ok gs ∧ gs ≠ [] ∧
      (∀ g ∈ gs, g.seconds.isEmpty = false ∧ g.WellFormed ∧
        g.WrittenIn (Scan.ofText text).lexemes ∧ g.FitsWords) ∧
      ∃ p, DerivesProgram (Scan.ofText text).lexemes p ∧ p.Means gs := by
  intro text gs
  have h : groupsOf text = .ok gs := by decide +kernel
  exact ⟨h, groupsOf_eq_ok_wellFormed h⟩

end Timetable

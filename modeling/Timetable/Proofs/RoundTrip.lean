/-
**Canonical texts are read back.**

The canonical form of groups is the spelling of a schedule in which every group stands in braces and
every range is one argument.  Its lexemes are read back from the text, as a symbol stands between
any two words and numbers; they derive that schedule in the grammar, if the ranges are well formed;
and what the schedule means are the groups it was made from, if each of them has rules for seconds
and leaves nothing to be implied.

Main definitions:

* `Range.argument`, `Rules.arguments` — the arguments that ranges are written as;
* `Rules.expressions`, `Group.expressions`, `canonicalProgram` — the schedule that groups are
  written as.

Main results:

* `readable_canonical` — canonical lexemes are read back from their text;
* `derivesProgram_canonical` — they derive the schedule that the groups are written as;
* `Group.ofExpressions_expressions` — its expressions give the rules of the group;
* `groupsOf_canonicalText` — **reading the canonical text of groups yields the groups**.
-/

import Mathlib.Data.List.Forall2
import Timetable.Proofs.Language
import Timetable.Proofs.Spelling
import Timetable.Proofs.WellFormed

set_option relaxedAutoImplicit false
set_option autoImplicit false

namespace Timetable

/-! ### The schedule that groups are written as -/

section Argument

variable {α : Type} [DecidableEq α]

/-- The argument that a range is written as. -/
def Range.argument (r : Range α) (exclude : Bool) : Argument α where
  excluded := exclude
  extent :=
    if r.start = r.stop ∧ r.halfOpen = false ∧ r.interval = 1 then .value r.start
    else .range r.start r.stop r.halfOpen
  interval := if r.interval = 1 then none else some r.interval

/-- The arguments that rules are written as: the ranges to include before those to exclude. -/
def Rules.arguments (rs : Rules α) : List (Argument α) :=
  rs.included.map (·.argument false) ++ rs.excluded.map (·.argument true)

/-- The expression that rules are written as, if there are any. -/
def Rules.expressions (expression : List (Argument α) → Expression) (rs : Rules α) :
    List Expression :=
  if rs.isEmpty then [] else [expression rs.arguments]

end Argument

/-- The expressions that a group is written as. -/
def Group.expressions (g : Group) : List Expression :=
  let dial (d : Dial) := (g.rules d).expressions (.dial d)
  g.dates.expressions .dates ++ dial .daysOfMonth ++ dial .daysOfWeek ++ dial .hours ++
    dial .minutes ++ dial .seconds

/-- The schedule that groups are written as. -/
def canonicalProgram (gs : List Group) : Program := gs.map fun g => .braced g.expressions

/-! ### What it means -/

section Argument

variable {α : Type} [DecidableEq α]

/-- A range is what its argument means in any domain, as both of its ends are written or it is the
range of one value. -/
theorem Range.range_argument (r : Range α) (exclude : Bool) (low high : α) :
    (r.argument exclude).range low high = r := by
  have hinterval : (if r.interval = 1 then none else some r.interval).getD 1 = r.interval := by
    split
    · rename_i h
      exact h.symm
    · rfl
  unfold argument
  -- only the range of one value leaves its end out, and its interval is one
  split
  · rename_i h
    obtain ⟨hends, hopen, hone⟩ := h
    rw [if_pos hone]
    exact (Range.of_eq_iff Nat.one_pos).2 ⟨⟨rfl, hends.symm, hopen⟩, hone⟩
  · unfold Argument.range
    dsimp only
    rw [hinterval]
    exact (Range.of_eq_iff r.interval_pos).2 ⟨⟨rfl, rfl, rfl⟩, rfl⟩

@[simp] theorem Range.excluded_argument (r : Range α) (exclude : Bool) :
    (r.argument exclude).excluded = exclude := rfl

theorem Rules.ofArguments_arguments {range : Argument α → Range α}
    (h : ∀ r exclude, range (Range.argument r exclude) = r) (rs : Rules α) :
    Rules.ofArguments range rs.arguments = rs := by
  have hincluded : rs.arguments.filter (fun a => !a.excluded) =
      rs.included.map (·.argument false) := by
    simp [arguments, List.filter_map, Function.comp_def]
  have hexcluded : rs.arguments.filter (fun a => a.excluded) =
      rs.excluded.map (·.argument true) := by
    simp [arguments, List.filter_map, Function.comp_def]
  rw [ofArguments, hincluded, hexcluded, List.map_map, List.map_map]
  simp [Function.comp_def, h]

theorem Rules.arguments_of_isEmpty {rs : Rules α} (h : rs.isEmpty = true) : rs.arguments = [] := by
  simp_all [isEmpty, arguments]

end Argument

@[simp] theorem dateArguments_append (es fs : List Expression) :
    dateArguments (es ++ fs) = dateArguments es ++ dateArguments fs :=
  List.flatMap_append

@[simp] theorem dialArguments_append (d : Dial) (es fs : List Expression) :
    dialArguments d (es ++ fs) = dialArguments d es ++ dialArguments d fs :=
  List.flatMap_append

namespace Rules

theorem dateArguments_dates (rs : Rules DateValue) :
    dateArguments (rs.expressions .dates) = rs.arguments := by
  unfold expressions
  split
  · rename_i h
    exact (arguments_of_isEmpty h).symm
  · exact List.flatMap_singleton _ _

theorem dateArguments_dial (rs : Rules Int) (d : Dial) :
    dateArguments (rs.expressions (.dial d)) = [] := by
  unfold expressions
  split <;> rfl

theorem dialArguments_dates (rs : Rules DateValue) (d : Dial) :
    dialArguments d (rs.expressions .dates) = [] := by
  unfold expressions
  split <;> rfl

theorem dialArguments_dial (rs : Rules Int) (d d' : Dial) :
    dialArguments d (rs.expressions (.dial d')) = if d' = d then rs.arguments else [] := by
  unfold expressions
  split
  · rename_i h
    rw [arguments_of_isEmpty h, ite_self]
    rfl
  · exact List.flatMap_singleton _ _

end Rules

namespace Group

theorem dateArguments_expressions (g : Group) :
    dateArguments g.expressions = g.dates.arguments := by
  simp [expressions, Rules.dateArguments_dates, Rules.dateArguments_dial]

theorem dialArguments_expressions (g : Group) (d : Dial) :
    dialArguments d g.expressions = (g.rules d).arguments := by
  cases d <;> simp [expressions, Rules.dialArguments_dates, Rules.dialArguments_dial]

/-- The expressions that a group is written as give the rules of the group. -/
theorem ofExpressions_expressions (g : Group) : Group.ofExpressions g.expressions = g := by
  rw [Group.eq_iff]
  constructor
  · rw [dates_ofExpressions, dateArguments_expressions]
    exact Rules.ofArguments_arguments (fun r exclude => r.range_argument exclude _ _) _
  · intro d
    rw [rules_ofExpressions, dialArguments_expressions]
    exact Rules.ofArguments_arguments (fun r exclude => r.range_argument exclude _ _) _

/-- A group with rules for seconds leaves nothing to be implied. -/
theorem withImpliedDefaults_of_seconds {g : Group} (h : g.seconds.isEmpty = false) :
    g.withImpliedDefaults = g := by
  rw [withImpliedDefaults]
  exact if_pos (by rw [h]; rfl)

end Group

/-- The schedule that groups are written as means these groups. -/
theorem groups_canonicalProgram {gs : List Group}
    (hseconds : ∀ g ∈ gs, g.seconds.isEmpty = false) : (canonicalProgram gs).groups = gs := by
  have hgathered : (canonicalProgram gs).gathered = gs.map Group.expressions := by
    rw [Program.gathered_eq_iff, canonicalProgram, ← Function.comp_def, ← List.map_map]
    exact Program.Gathers.braced _
  rw [Program.groups, hgathered, List.map_map]
  refine (List.map_congr_left fun g hg => ?_).trans (List.map_id gs)
  rw [Function.comp_apply, Group.ofExpressions_expressions,
    Group.withImpliedDefaults_of_seconds (hseconds g hg), id]

/-! ### What its lexemes derive -/

section Argument

variable {α : Type} [DecidableEq α] {valid : α → Prop} {mayBound : α → α → Prop}
  {value : List Lexeme → α → Prop} {write : α → List Lexeme}

/-- The canonical lexemes of a well-formed range derive its argument, with an exclusion mark in
front of them and without. -/
theorem Range.WellFormed.derivesArgument {r : Range α} (h : r.WellFormed valid mayBound)
    (hwrite : ∀ a, valid a → value (write a) a) :
    DerivesArgument value mayBound (r.lexemes write) (r.argument false) ∧
      DerivesArgument value mayBound (.symbol .not :: r.lexemes write) (r.argument true) := by
  have hstart := hwrite r.start h.start
  have hstop := hwrite r.stop h.stop
  by_cases hsingle : r.start = r.stop ∧ r.halfOpen = false ∧ r.interval = 1
  · have hextent : DerivesExtent value mayBound (write r.start) (.value r.start) :=
      DerivesExtent.value hstart
    unfold Range.lexemes Range.argument
    rw [if_pos hsingle, if_pos hsingle, if_pos hsingle.2.2, ← List.append_nil (write r.start)]
    exact ⟨DerivesArgument.included hextent DerivesInterval.absent,
      DerivesArgument.excluded hextent DerivesInterval.absent nofun⟩
  · have hextent := DerivesExtent.range r.halfOpen hstart hstop h.differ h.bound
    have hinterval : DerivesInterval
        (if r.interval = 1 then [] else [.symbol .interval, integerLexeme r.interval])
        (if r.interval = 1 then none else some r.interval) := by
      split
      · exact DerivesInterval.absent
      · have hvalue := Numeral.value_ofInt (r.interval : Int)
        have hpos := r.interval_pos
        have hle := h.interval
        have hevery := DerivesInterval.every (Numeral.ofInt r.interval) (by omega)
        rw [hvalue, Int.toNat_natCast] at hevery
        exact hevery
    unfold Range.lexemes Range.argument
    rw [if_neg hsingle, if_neg hsingle]
    exact ⟨DerivesArgument.included hextent hinterval,
      DerivesArgument.excluded hextent hinterval nofun⟩

/-- The canonical lexemes of well-formed rules derive their arguments. -/
theorem Rules.derivesList_arguments {rs : Rules α} (h : rs.Forall (Range.WellFormed valid mayBound))
    (hwrite : ∀ a, valid a → value (write a) a) :
    List.Forall₂ (DerivesArgument value mayBound)
      (rs.included.map (Range.lexemes write) ++
        rs.excluded.map fun r => .symbol .not :: Range.lexemes write r)
      rs.arguments := by
  refine List.rel_append ?_ ?_
  · rw [List.forall₂_map_left_iff, List.forall₂_map_right_iff, List.forall₂_same]
    exact fun r hr => ((h.1 r hr).derivesArgument hwrite).1
  · rw [List.forall₂_map_left_iff, List.forall₂_map_right_iff, List.forall₂_same]
    exact fun r hr => ((h.2 r hr).derivesArgument hwrite).2

theorem Rules.arguments_ne_nil {rs : Rules α} (h : ¬rs.isEmpty = true) : rs.arguments ≠ [] := by
  intro hnil
  simp_all [isEmpty, arguments]

end Argument

/-- Things with commas between them are a list. -/
theorem DerivesList.commaSeparated {α : Type} {thing : List Lexeme → α → Prop}
    {lss : List (List Lexeme)} {as : List α} (h : List.Forall₂ thing lss as) (hne : as ≠ []) :
    DerivesList thing (commaSeparated lss) as := by
  induction h with
  | nil => exact absurd rfl hne
  | @cons ls a lss as hthing htail ih =>
      cases htail with
      | nil =>
          have hlist := DerivesList.last hthing OptionalComma.absent
          rw [List.append_nil] at hlist
          exact hlist
      | cons => exact DerivesList.cons hthing OptionalComma.comma (ih (List.cons_ne_nil _ _))

theorem DateValue.IsNameable.derivesDate {v : DateValue} (h : v.IsNameable) :
    DerivesDate v.lexemes v := by
  obtain ⟨year, month, day⟩ := v
  cases year with
  | none =>
      have hderives := DerivesDate.yearless (Numeral.ofInt month) (Numeral.ofInt day)
      rw [Numeral.value_ofInt, Numeral.value_ofInt] at hderives
      exact hderives h
  | some year =>
      have hderives :=
        DerivesDate.full (Numeral.ofInt year) (Numeral.ofInt month) (Numeral.ofInt day)
      rw [Numeral.value_ofInt, Numeral.value_ofInt, Numeral.value_ofInt] at hderives
      exact hderives h

theorem Dial.Takes.derivesDialValue {d : Dial} {n : Int} (h : d.Takes n) :
    DerivesDialValue d [integerLexeme n] n := by
  have hvalue := Numeral.value_ofInt n
  have hderives : d.Takes (Numeral.ofInt n).value →
      DerivesDialValue d [integerLexeme n] (Numeral.ofInt n).value :=
    DerivesDialValue.number (Numeral.ofInt n)
  rw [hvalue] at hderives
  exact hderives h

/-- A kind is named by the name it is written with. -/
theorem Kind.named_name (kind : Kind) : kind.Named kind.name.toList := by
  unfold Kind.Named
  cases kind with
  | dates => decide
  | dial d => cases d <;> decide

/-- The canonical lexemes of well-formed rules derive their expression, if there are any rules. -/
theorem Rules.derivesExpressions {α : Type} [DecidableEq α] {valid : α → Prop}
    {mayBound : α → α → Prop} {value : List Lexeme → α → Prop} {write : α → List Lexeme}
    {kind : Kind} {expression : List (Argument α) → Expression}
    (hexpression : ∀ ls as, DerivesList (DerivesArgument value mayBound) ls as →
      DerivesExpression
        (.word kind.name.toList :: .symbol .openParen :: (ls ++ [.symbol .closeParen]))
        (expression as))
    (hwrite : ∀ a, valid a → value (write a) a) {rs : Rules α}
    (h : rs.Forall (Range.WellFormed valid mayBound)) :
    List.Forall₂ DerivesExpression (rs.lexemes kind (Range.lexemes write))
      (rs.expressions expression) := by
  unfold lexemes expressions
  split
  · exact List.Forall₂.nil
  · rename_i hne
    have hlist :=
      DerivesList.commaSeparated (rs.derivesList_arguments h hwrite) (arguments_ne_nil hne)
    exact List.Forall₂.cons (hexpression _ _ hlist) List.Forall₂.nil

theorem Group.expressions_ne_nil {g : Group} (h : g.seconds.isEmpty = false) :
    g.expressions ≠ [] := by
  have hseconds : (g.rules .seconds).isEmpty = false := h
  simp [expressions, Rules.expressions, hseconds]

/-- The canonical lexemes of a well-formed group derive the group in braces. -/
theorem Group.WellFormed.derivesItem {g : Group} (h : g.WellFormed)
    (hseconds : g.seconds.isEmpty = false) : DerivesItem g.lexemes (.braced g.expressions) := by
  have hdates := Rules.derivesExpressions (fun _ _ => DerivesExpression.dates Kind.dates.named_name)
    (fun _ hv => hv.derivesDate) h.dates
  have hdial (d : Dial) :=
    Rules.derivesExpressions (fun _ _ => DerivesExpression.dial (Kind.dial d).named_name)
      (fun _ hn => Dial.Takes.derivesDialValue hn) (h.dial d)
  have hdays := List.rel_append (List.rel_append hdates (hdial .daysOfMonth)) (hdial .daysOfWeek)
  have hminutes := List.rel_append (List.rel_append hdays (hdial .hours)) (hdial .minutes)
  have hall := List.rel_append hminutes (hdial .seconds)
  exact DerivesItem.braced (DerivesList.commaSeparated hall (Group.expressions_ne_nil hseconds))

/-- **Canonical lexemes derive the schedule that the groups are written as.** -/
theorem derivesProgram_canonical {gs : List Group} (hne : gs ≠ []) (h : ∀ g ∈ gs, g.WellFormed)
    (hseconds : ∀ g ∈ gs, g.seconds.isEmpty = false) :
    DerivesProgram (canonical gs) (canonicalProgram gs) := by
  refine DerivesList.commaSeparated ?_ (by simpa [canonicalProgram] using hne)
  rw [canonicalProgram, List.forall₂_map_left_iff, List.forall₂_map_right_iff, List.forall₂_same]
  exact fun g hg => (h g hg).derivesItem (hseconds g hg)

/-! ### Its text is read back -/

theorem isSpellable_integerLexeme (n : Int) : (integerLexeme n).IsSpellable :=
  ⟨Nat.toDigits_ne_nil, fun _ hc => Nat.isDigit_of_mem_toDigits (by decide) (by decide) hc⟩

theorem isSpellable_name (kind : Kind) : (Lexeme.word kind.name.toList).IsSpellable := by
  have hall : ∀ kind ∈ Kind.all,
      kind.name.toList ≠ [] ∧ kind.name.toList.all isLetter = true := by decide
  obtain ⟨hne, hletters⟩ := hall kind kind.mem_all
  exact ⟨hne, List.all_eq_true.1 hletters⟩

theorem readable_integer (n : Int) : Readable [integerLexeme n] :=
  Readable.singleton (isSpellable_integerLexeme n)

theorem readable_date (v : DateValue) : Readable v.lexemes := by
  have hinYear := (readable_integer v.month).join .slash (readable_integer v.day)
  unfold DateValue.lexemes
  cases v.year with
  | none => exact hinYear
  | some year => exact (readable_integer year).join .slash hinYear

theorem readable_range {α : Type} [DecidableEq α] {write : α → List Lexeme}
    (hwrite : ∀ a, Readable (write a)) (r : Range α) : Readable (r.lexemes write) := by
  unfold Range.lexemes
  split
  · exact hwrite r.start
  · have hends (s : Symbol) := (hwrite r.start).join s (hwrite r.stop)
    by_cases hone : r.interval = 1
    · rw [if_pos hone, List.append_nil]
      exact hends _
    · rw [if_neg hone]
      exact (hends _).join .interval (readable_integer _)

theorem readable_commaSeparated {lss : List (List Lexeme)} (h : ∀ ls ∈ lss, Readable ls) :
    Readable (commaSeparated lss) := by
  induction lss with
  | nil => exact Readable.nil
  | cons ls lss ih =>
      have hls := h ls (List.mem_cons_self ..)
      have hlss := ih fun ms hms => h ms (List.mem_cons_of_mem ls hms)
      cases lss with
      | nil => exact hls
      | cons ms lss => exact hls.join .comma hlss

theorem readable_rules {α : Type} (kind : Kind) {write : Range α → List Lexeme}
    (hwrite : ∀ r, Readable (write r)) (rs : Rules α) :
    ∀ ls ∈ rs.lexemes kind write, Readable ls := by
  intro ls hls
  unfold Rules.lexemes at hls
  split at hls
  · cases hls
  · rw [List.mem_singleton.1 hls]
    have harguments : Readable (commaSeparated
        (rs.included.map write ++ rs.excluded.map fun r => .symbol .not :: write r)) := by
      refine readable_commaSeparated fun ms hms => ?_
      rcases List.mem_append.1 hms with hms | hms
      · obtain ⟨r, -, rfl⟩ := List.mem_map.1 hms
        exact hwrite r
      · obtain ⟨r, -, rfl⟩ := List.mem_map.1 hms
        exact (hwrite r).symbol_cons .not
    have hname := Readable.singleton (isSpellable_name kind)
    exact hname.join .openParen (harguments.append_symbol .closeParen)

theorem readable_group (g : Group) : Readable g.lexemes := by
  have hdates := readable_rules .dates (readable_range readable_date) g.dates
  have hdial (d : Dial) :=
    readable_rules (.dial d) (readable_range readable_integer) (g.rules d)
  refine ((readable_commaSeparated ?_).append_symbol .closeBrace).symbol_cons .openBrace
  intro ls hls
  simp only [List.mem_append] at hls
  rcases hls with ((((hls | hls) | hls) | hls) | hls) | hls
  · exact hdates ls hls
  · exact hdial .daysOfMonth ls hls
  · exact hdial .daysOfWeek ls hls
  · exact hdial .hours ls hls
  · exact hdial .minutes ls hls
  · exact hdial .seconds ls hls

/-- **Canonical lexemes are readable**: they are read back from their text. -/
theorem readable_canonical (gs : List Group) : Readable (canonical gs) := by
  refine readable_commaSeparated fun ls hls => ?_
  obtain ⟨g, -, rfl⟩ := List.mem_map.1 hls
  exact readable_group g

/-- **Reading the canonical text of groups yields the groups**, if there are any, all are well
formed and each has rules for seconds. -/
theorem groupsOf_canonicalText {gs : List Group} (hne : gs ≠ []) (h : ∀ g ∈ gs, g.WellFormed)
    (hseconds : ∀ g ∈ gs, g.seconds.isEmpty = false) :
    groupsOf (canonicalText gs) = .ok gs := by
  obtain ⟨hlexemes, hending⟩ := Scan.ofText_spell (readable_canonical gs)
  refine groupsOf_eq_ok_iff_read.2 ⟨canonicalProgram gs, ?_, groups_canonicalProgram hseconds⟩
  rw [canonicalText, hlexemes, hending]
  exact Program.read_eq_ok_iff.2 ⟨rfl, derivesProgram_canonical hne h hseconds⟩

/-- Dates of both sorts, numbers that count back, a half-open range that wraps around, the longest
interval and rules that only exclude. -/
theorem groupsOf_canonicalText_mixed :
    let gs : List Group :=
      [{ dates.included := [Range.of (.full 2024 2 29) (.full 2200 12 31) true 4294967295]
         dates.excluded := [Range.of (.yearless 12 24) (.yearless 1 2) false 1]
         seconds.included := [Range.single 0] },
       { daysOfMonth.included := [Range.of (-3) (-1) false 1, Range.of 5 5 false 10]
         hours.included := [Range.of 22 3 true 2]
         seconds.excluded := [Range.single 59] }]
    (gs ≠ [] ∧ (∀ g ∈ gs, g.WellFormed) ∧ ∀ g ∈ gs, g.seconds.isEmpty = false) ∧
      groupsOf (canonicalText gs) = .ok gs := by
  intro gs
  have hne : gs ≠ [] := by decide
  have hwellFormed : ∀ g ∈ gs, g.WellFormed := by decide
  have hseconds : ∀ g ∈ gs, g.seconds.isEmpty = false := by decide
  exact ⟨⟨hne, hwellFormed, hseconds⟩, groupsOf_canonicalText hne hwellFormed hseconds⟩

end Timetable

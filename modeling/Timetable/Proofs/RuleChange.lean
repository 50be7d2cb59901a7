/-
**What a change to the rules of one kind does to a group.**

An instant has to pass the rules of every kind, and the rules of a kind look at nothing else of the
group.  So a change to the rules of one kind is seen in the test of that kind alone, and in a search
only through the instants that the group then admits.

A wildcard covers all numbers on a dial and all dates of a year, and rules that are not there admit
everything as well.  Where there were none, a wildcard changes nothing but this: rules for the day
of the month look at the month before, whatever they say, and admit nothing in the first month of
the calendar, which has none before it.

Rules become narrower by one more range to exclude, or by one range to include less if another one
is left; without this condition the empty list would admit everything again.  Narrower rules admit
nothing new, and a search then finds what is farther away, or nothing.

Main definitions:

* `Dial.hits?`, `Rules.Passes` — the test of the rules for one dial;
* `Group.withWildcard`, `Group.lacksRules` — a wildcard for a kind that has no rules;
* `Kind.IsBlindAt` — the days on which the rules of a kind admit nothing, whatever they are;
* `Rules.Narrows`, `Group.Narrows`, `NarrowsOne` — one step to narrower rules, in one of several
  groups.

Main results:

* `Group.admits_iff_passes` — **an instant passes the rules of every kind on their own**;
* `Group.wildcard_neutral_behind_first_month` — **a wildcard changes nothing behind the first
  month**;
* `Group.wildcard_not_neutral_in_first_month` — it is not neutral in that month;
* `Schedule.search_of_admits_imp` — what admits less is found farther away;
* `Schedule.narrowing_moves_answers_away` — **narrower rules never move an answer closer**.
-/

import Mathlib.Logic.Relation
import Timetable.Proofs.DateProgression
import Timetable.Proofs.GroupUnion
import Timetable.Proofs.MonthProgression

set_option relaxedAutoImplicit false
set_option autoImplicit false

namespace Timetable

/-! ### The rules for one dial -/

/-- How the ranges for a dial are asked at an instant.  Those for the day of the month need a month
before. -/
def Dial.hits? (t : Instant) : Dial → Option (Range Int → Bool)
  | daysOfMonth => t.date.previousMonthLength?.map fun length r =>
      (r.countedFromStart t.date.monthLength).hits length t.date.day
  | daysOfWeek => some fun r => r.hits 7 t.date.weekday
  | hours => some fun r => r.hits 24 t.clock.hour.val
  | minutes => some fun r => r.hits 60 t.clock.minute.val
  | seconds => some fun r => r.hits 60 t.clock.second.val

/-- The rules for a dial let an instant pass: there are none, or they admit the number on it. -/
def Rules.Passes (rs : Rules Int) (d : Dial) (t : Instant) : Prop :=
  rs.isEmpty = true ∨ ∃ hit, d.hits? t = some hit ∧ rs.admits hit = true

theorem Rules.passes_iff_of_hits? {rs : Rules Int} {d : Dial} {t : Instant}
    {hit : Range Int → Bool} (h : d.hits? t = some hit) :
    rs.Passes d t ↔ rs.admits hit = true := by
  constructor
  · rintro (hempty | ⟨hit', hhit', hadmits⟩)
    · exact Rules.admits_of_isEmpty hempty hit
    · rw [h] at hhit'
      cases hhit'
      exact hadmits
  · intro hadmits
    exact Or.inr ⟨hit, h, hadmits⟩

theorem Rules.passes_iff_of_isEmpty_eq_false {rs : Rules Int} {d : Dial} {t : Instant}
    (h : rs.isEmpty = false) :
    rs.Passes d t ↔ ∃ hit, d.hits? t = some hit ∧ rs.admits hit = true := by
  unfold Passes
  rw [h]
  exact or_iff_right Bool.false_ne_true

/-- There is at least the range that was added. -/
@[simp] theorem Rules.isEmpty_push {α : Type} (rs : Rules α) (r : Range α) (exclude : Bool) :
    (rs.push r exclude).isEmpty = false := by
  cases exclude <;> simp [push, isEmpty]

/-! ### The rules of one kind -/

namespace Group

variable {g g' : Group} {t : Instant} {j k : Kind}

/-- The rules of one kind let the instant pass. -/
def Passes (g : Group) (t : Instant) : Kind → Prop
  | .dates => (g.dates.admits fun r => r.hitsDate t.date) = true
  | .dial d => (g.rules d).Passes d t

theorem passes_dates_iff :
    g.Passes t .dates ↔ (g.dates.admits fun r => r.hitsDate t.date) = true := Iff.rfl

theorem passes_dial_iff {d : Dial} : g.Passes t (.dial d) ↔ (g.rules d).Passes d t := Iff.rfl

theorem admitsDayOfMonth_iff_passes :
    g.admitsDayOfMonth t.date = true ↔ g.Passes t (.dial .daysOfMonth) := by
  unfold admitsDayOfMonth Passes Rules.Passes Dial.hits?
  cases t.date.previousMonthLength? <;> simp [rules]

/-- **An instant passes the rules of every kind on their own.** -/
theorem admits_iff_passes : g.admits t = true ↔ ∀ k, g.Passes t k := by
  have hweek : g.Passes t (.dial .daysOfWeek) ↔ g.admitsDayOfWeek t.date = true :=
    Rules.passes_iff_of_hits? rfl
  have hhours : g.Passes t (.dial .hours) ↔ g.admitsHour t.clock.hour = true :=
    Rules.passes_iff_of_hits? rfl
  have hminutes : g.Passes t (.dial .minutes) ↔ g.admitsMinute t.clock.minute = true :=
    Rules.passes_iff_of_hits? rfl
  have hseconds : g.Passes t (.dial .seconds) ↔ g.admitsSecond t.clock.second = true :=
    Rules.passes_iff_of_hits? rfl
  simp only [admits, admitsDate, admitsClock, Bool.and_eq_true, admitsDayOfMonth_iff_passes,
    ← hweek, ← hhours, ← hminutes, ← hseconds]
  constructor
  · rintro ⟨⟨⟨hdates, hmonth⟩, hweek⟩, ⟨hhours, hminutes⟩, hseconds⟩ k
    rcases k with _ | d
    · exact hdates
    · cases d <;> assumption
  · intro h
    exact ⟨⟨⟨h .dates, h _⟩, h _⟩, ⟨h _, h _⟩, h _⟩

/-- The rules for a dial are seen in the test of that dial alone. -/
theorem passes_modify_iff {d : Dial} (f : Rules Int → Rules Int) (h : k ≠ .dial d) :
    (g.modify d f).Passes t k ↔ g.Passes t k := by
  cases k with
  | dates => rw [passes_dates_iff, passes_dates_iff, dates_modify]
  | dial e =>
      have hne : e ≠ d := fun he => h (congrArg Kind.dial he)
      rw [passes_dial_iff, passes_dial_iff, rules_modify_of_ne g hne]

/-- The rules for dates are seen in the test of dates alone. -/
theorem passes_withDates_iff (rs : Rules DateValue) (h : k ≠ .dates) :
    ({ g with dates := rs } : Group).Passes t k ↔ g.Passes t k := by
  cases k with
  | dates => exact absurd rfl h
  | dial e => cases e <;> exact Iff.rfl

end Group

/-! ### Wildcards -/

/-- One range among no others is the whole test. -/
theorem Rules.admits_push_of_isEmpty {α : Type} {rs : Rules α} (h : rs.isEmpty = true)
    (r : Range α) (hit : Range α → Bool) : (rs.push r false).admits hit = hit r := by
  simp_all [Rules.isEmpty, Rules.push, Rules.admits]

/-- The argument that is a bare wildcard. -/
def Argument.everything {α : Type} : Argument α := ⟨false, .wildcard, none⟩

theorem Argument.dateRange_everything :
    everything.dateRange = Range.of (.yearless 1 1) (.yearless 12 31) false 1 := rfl

theorem Argument.dialRange_everything (d : Dial) :
    everything.dialRange d = Range.of d.low d.high false 1 := rfl

/-- A wildcard hits every number of a domain. -/
theorem Range.hits_of_domain {low high v : Int} (h : low ≤ v ∧ v ≤ high) (length : Int) :
    (Range.of low high false 1).hits length v = true := by
  refine (Range.hits_of_le (le_trans h.1 h.2)).2 ⟨h, nofun, ?_⟩
  exact Int.one_dvd _

/-- A wildcard hits every date. -/
theorem Argument.hitsDate_everything (d : Date) :
    everything.dateRange.hitsDate d = true := by
  have hmonth := d.isDate.2.1
  have hday := d.isDate.2.2
  have hlong := monthLength_le d.year d.month
  have hstart : DateValue.yearless 1 1 ≤ DateValue.yearlessOfDate d := by
    rw [DateValue.le_iff_of_yearless rfl rfl]
    refine Prod.Lex.toLex_le_toLex.2 ?_
    dsimp only [DateValue.yearless, DateValue.yearlessOfDate]
    omega
  have hstop : DateValue.yearlessOfDate d ≤ DateValue.yearless 12 31 := by
    rw [DateValue.le_iff_of_yearless rfl rfl]
    refine Prod.Lex.toLex_le_toLex.2 ?_
    dsimp only [DateValue.yearless, DateValue.yearlessOfDate]
    omega
  have hwhole : (Range.of (DateValue.yearless 1 1) (.yearless 12 31) false 1).isSplit = false := by
    decide
  have hyearly : everything.dateRange.hitsYearly d = true := by
    rw [dateRange_everything, Range.hitsYearly_eq, hwhole]
    simp [hstart, hstop, Range.interval_of]
  exact hyearly

/-- A wildcard hits the number on every dial. -/
theorem Argument.hits_everything {d : Dial} {t : Instant} {hit : Range Int → Bool}
    (h : d.hits? t = some hit) : hit (everything.dialRange d) = true := by
  rw [dialRange_everything]
  cases d with
  | daysOfMonth =>
      obtain ⟨length, -, rfl⟩ := Option.map_eq_some_iff.1 h
      -- neither end of the range is counted back from the end of the month
      have hcounted : (Range.of (1 : Int) 31 false 1).countedFromStart t.date.monthLength =
          Range.of 1 31 false 1 := rfl
      have hday := t.date.isDate.2.2
      have hlong := monthLength_le t.date.year t.date.month
      exact (congrArg (·.hits length t.date.day) hcounted).trans
        (Range.hits_of_domain ⟨hday.1, hday.2.trans hlong⟩ length)
  | daysOfWeek => cases h; exact Range.hits_of_domain t.date.weekday_mem 7
  | hours => cases h; exact Range.hits_of_domain (by simp only [Dial.low, Dial.high]; omega) 24
  | minutes => cases h; exact Range.hits_of_domain (by simp only [Dial.low, Dial.high]; omega) 60
  | seconds => cases h; exact Range.hits_of_domain (by simp only [Dial.low, Dial.high]; omega) 60

/-- Rules of the kind admit nothing on the day, whatever they are: those for the day of the month
look at the month before, and the first month of the calendar has none. -/
def Kind.IsBlindAt (k : Kind) (d : Date) : Prop :=
  k = .dial .daysOfMonth ∧ d.monthNumber = Date.firstMonthNumber

instance (k : Kind) (d : Date) : Decidable (k.IsBlindAt d) := inferInstanceAs (Decidable (_ ∧ _))

theorem Date.previousMonthLength?_eq_none_iff {d : Date} :
    d.previousMonthLength? = none ↔ d.monthNumber = firstMonthNumber := by
  have hcalendar := d.isDate.1
  have hmonth := d.isDate.2.1
  constructor
  · intro hnone
    by_contra hne
    have hlater : firstMonthNumber < d.monthNumber := by
      unfold firstMonthNumber monthNumber at *
      omega
    obtain ⟨length, hlength⟩ := exists_previousMonthLength? hlater
    rw [hnone] at hlength
    cases hlength
  · intro hfirst
    unfold firstMonthNumber monthNumber at hfirst
    have hjanuary : d.month = 1 := by omega
    have hyear : d.year = -9999 := by omega
    rw [previousMonthLength?, hjanuary, hyear]
    rfl

theorem Dial.hits?_eq_none_iff {d : Dial} {t : Instant} :
    d.hits? t = none ↔ (Kind.dial d).IsBlindAt t.date := by
  unfold Kind.IsBlindAt
  cases d with
  | daysOfMonth =>
      rw [hits?, Option.map_eq_none_iff, Date.previousMonthLength?_eq_none_iff]
      exact (and_iff_right rfl).symm
  | daysOfWeek | hours | minutes | seconds => simp [hits?]

namespace Group

variable {g : Group} {t : Instant} {j k : Kind} {dir : Direction}

/-- The group has no rules of the kind. -/
def lacksRules (g : Group) : Kind → Bool
  | .dates => g.dates.isEmpty
  | .dial d => (g.rules d).isEmpty

/-- The group with a wildcard among its rules of a kind. -/
def withWildcard (g : Group) : Kind → Group
  | .dates => g.pushDates Argument.everything.dateRange false
  | .dial d => g.pushDial d (Argument.everything.dialRange d) false

theorem passes_of_lacksRules (h : g.lacksRules k = true) : g.Passes t k := by
  cases k with
  | dates => exact Rules.admits_of_isEmpty h _
  | dial d => exact Or.inl h

theorem passes_withWildcard_of_ne (h : j ≠ k) : (g.withWildcard k).Passes t j ↔ g.Passes t j := by
  cases k with
  | dates => exact passes_withDates_iff _ h
  | dial d => exact passes_modify_iff _ h

/-- A wildcard where there were no rules lets everything pass but in the first month. -/
theorem passes_withWildcard_self (h : g.lacksRules k = true) :
    (g.withWildcard k).Passes t k ↔ ¬k.IsBlindAt t.date := by
  cases k with
  | dates =>
      have hpass : (g.withWildcard .dates).Passes t .dates := by
        refine (Rules.admits_push_of_isEmpty h _ _).trans ?_
        exact Argument.hitsDate_everything t.date
      refine iff_of_true hpass fun hblind => ?_
      cases hblind.1
  | dial d =>
      have hrules : (g.withWildcard (.dial d)).rules d =
          (g.rules d).push (Argument.everything.dialRange d) false := rules_modify_self ..
      rw [passes_dial_iff, hrules, Rules.passes_iff_of_isEmpty_eq_false (Rules.isEmpty_push ..),
        ← Dial.hits?_eq_none_iff, ← ne_eq, Option.ne_none_iff_exists']
      refine exists_congr fun hit => and_iff_left_of_imp fun hhit => ?_
      rw [Rules.admits_push_of_isEmpty h]
      exact Argument.hits_everything hhit

/-- The group with a wildcard admits what the group admits, but nothing where it is blind. -/
theorem admits_withWildcard_iff (h : g.lacksRules k = true) :
    (g.withWildcard k).admits t = true ↔ g.admits t = true ∧ ¬k.IsBlindAt t.date := by
  rw [admits_iff_passes, admits_iff_passes, ← passes_withWildcard_self h]
  constructor
  · intro hpasses
    refine ⟨fun j => ?_, hpasses k⟩
    by_cases hj : j = k
    · exact hj ▸ passes_of_lacksRules h
    · exact (passes_withWildcard_of_ne hj).1 (hpasses j)
  · rintro ⟨hpasses, hself⟩ j
    by_cases hj : j = k
    · exact hj ▸ hself
    · exact (passes_withWildcard_of_ne hj).2 (hpasses j)

end Group

/-- What a search finds in a larger set is what it finds in the smaller one, if it lies in that. -/
theorem Direction.Finds.eq_of_subset {α : Type} [PartialOrder α] {dir : Direction} {s s' : Set α}
    {a a' : Option α} (ha : dir.Finds s a) (ha' : dir.Finds s' a') (hsub : s' ⊆ s)
    (h : ∀ x, a = some x → x ∈ s') : a' = a := by
  cases a with
  | none =>
      have hempty : s = ∅ := ha
      exact ha'.eq_none_iff.2 (Set.subset_eq_empty hsub hempty)
  | some x => exact ha'.eq_some_iff.2 ⟨h x rfl, fun y hy => ha.2 y (hsub hy)⟩

namespace Group

variable {g : Group} {k : Kind}

/-- **A wildcard changes nothing behind the first month.**  A group gets a wildcard of a kind for
which it has no rules.  Then it still admits the same instants, but for those of the first month of
the calendar if the wildcard is for the day of the month.  A search finds the nearest of the
instants that are left, which is the one found before unless that was one of the first month. -/
theorem wildcard_neutral_behind_first_month (h : g.lacksRules k = true) (t : Instant) :
    ((g.withWildcard k).admits t = true ↔ g.admits t = true ∧ ¬k.IsBlindAt t.date) ∧
      ∀ dir : Direction,
        dir.Finds {u | (u ∈ dir.window t ∧ g.admits u = true) ∧ ¬k.IsBlindAt u.date}
            ((g.withWildcard k).event? dir t) ∧
          ((∀ u, g.event? dir t = some u → ¬k.IsBlindAt u.date) →
            (g.withWildcard k).event? dir t = g.event? dir t) := by
  refine ⟨admits_withWildcard_iff h, fun dir => ?_⟩
  have hfound := g.finds_event? dir t
  have hleft : dir.Finds {u | (u ∈ dir.window t ∧ g.admits u = true) ∧ ¬k.IsBlindAt u.date}
      ((g.withWildcard k).event? dir t) := by
    refine ((g.withWildcard k).finds_event? dir t).congr fun u => ?_
    simp only [Set.mem_ofPred_eq, admits_withWildcard_iff h, and_assoc]
  refine ⟨hleft, fun hsees => hfound.eq_of_subset hleft (fun u hu => hu.1) fun u hu => ?_⟩
  exact ⟨(hfound.eq_some_iff.1 hu).1, hsees u hu⟩

/-- Noon of the last of March is admitted with a wildcard for the day of the month as without one,
and searches from there find the next noon and this one, though the month before has but 29 days. -/
theorem wildcard_neutral_in_long_month :
    let k : Kind := .dial .daysOfMonth
    let g : Group :=
      { hours.included := [Range.single 12]
        minutes.included := [Range.single 0]
        seconds.included := [Range.single 0] }
    let t : Instant := ⟨⟨2024, 3, 31, by decide⟩, ⟨12, 0, 0⟩, 0⟩
    let u : Instant := ⟨⟨2024, 4, 1, by decide⟩, ⟨12, 0, 0⟩, 0⟩
    (g.lacksRules k = true ∧ g.withWildcard k ≠ g) ∧ (g.withWildcard k).admits t = true ∧
      (g.withWildcard k).event? .forward t = some u ∧
        (g.withWildcard k).event? .backward t = some t := by
  intro k g t u
  have hg : g.lacksRules k = true := by decide
  have hnext : g.event? .forward t = some u := by decide +kernel
  have hprevious : g.event? .backward t = some t := by decide +kernel
  obtain ⟨hadmits, hsearch⟩ := wildcard_neutral_behind_first_month hg t
  refine ⟨⟨hg, by decide⟩, hadmits.2 ⟨by decide, by decide⟩,
    ((hsearch .forward).2 fun v hv => ?_).trans hnext,
    ((hsearch .backward).2 fun v hv => ?_).trans hprevious⟩
  · cases hnext.symm.trans hv
    decide
  · cases hprevious.symm.trans hv
    decide

/-- **A wildcard is not neutral in the first month.**  From noon of a day in the first month of the
calendar each second is one to find, but with a wildcard for the day of the month the next one is in
February, and there is none before. -/
theorem wildcard_not_neutral_in_first_month :
    let k : Kind := .dial .daysOfMonth
    let g : Group := { seconds.included := [Range.of 0 59 false 1] }
    let t : Instant := ⟨⟨-9999, 1, 15, by decide⟩, ⟨12, 0, 0⟩, 0⟩
    (groupsOf "s(*)" = .ok [g] ∧ groupsOf "dom(*), s(*)" = .ok [g.withWildcard k] ∧
        g.lacksRules k = true) ∧
      (g.admits t = true ∧ ¬(g.withWildcard k).admits t = true) ∧
      (g.event? .forward t = some (Instant.atSecond t.date ⟨12, 0, 1⟩) ∧
        (g.withWildcard k).event? .forward t =
          some (Instant.atSecond ⟨-9999, 2, 1, by decide⟩ Clock.first)) ∧
      g.event? .backward t = some t ∧ (g.withWildcard k).event? .backward t = none := by
  intro k g t
  have hread : groupsOf "s(*)" = .ok [g] := by decide +kernel
  have hread' : groupsOf "dom(*), s(*)" = .ok [g.withWildcard k] := by decide +kernel
  have hnext : g.event? .forward t = some (Instant.atSecond t.date ⟨12, 0, 1⟩) := by decide +kernel
  have hnext' : (g.withWildcard k).event? .forward t =
      some (Instant.atSecond ⟨-9999, 2, 1, by decide⟩ Clock.first) := by decide +kernel
  have hprevious : g.event? .backward t = some t := by decide +kernel
  have hprevious' : (g.withWildcard k).event? .backward t = none := by decide +kernel
  exact ⟨⟨hread, hread', by decide⟩, ⟨by decide, by decide⟩, ⟨hnext, hnext'⟩, hprevious,
    hprevious'⟩

end Group

/-! ### Narrower rules -/

/-- One step to narrower rules: one more range to exclude, or one range to include less where
another one is left. -/
inductive Rules.Narrows {α : Type} (rs : Rules α) : Rules α → Prop
  | exclude (r : Range α) : rs.Narrows (rs.push r true)
  | drop (before : List (Range α)) (r : Range α) (after : List (Range α))
      (h : rs.included = before ++ r :: after) (hleft : before ++ after ≠ []) :
      rs.Narrows { rs with included := before ++ after }

/-- One step to narrower rules of one kind. -/
inductive Group.Narrows (g : Group) : Group → Prop
  | dates {rs : Rules DateValue} (h : g.dates.Narrows rs) : g.Narrows { g with dates := rs }
  | dial (d : Dial) {rs : Rules Int} (h : (g.rules d).Narrows rs) :
      g.Narrows (g.modify d fun _ => rs)

/-- One step to narrower rules in one of several groups. -/
inductive NarrowsOne : List Group → List Group → Prop
  | head {g g' : Group} (gs : List Group) (h : g.Narrows g') : NarrowsOne (g :: gs) (g' :: gs)
  | tail (g : Group) {gs gs' : List Group} (h : NarrowsOne gs gs') :
      NarrowsOne (g :: gs) (g :: gs')

namespace Rules.Narrows

variable {α : Type} {rs rs' : Rules α}

/-- Narrower rules are never without ranges, so they do not come to admit everything. -/
theorem isEmpty_eq_false (h : rs.Narrows rs') : rs'.isEmpty = false := by
  cases h with
  | exclude r => exact isEmpty_push ..
  | drop before r after _ hleft =>
      refine Bool.and_eq_false_imp.2 fun hnil => ?_
      exact absurd (List.isEmpty_iff.1 hnil) hleft

/-- **Narrower rules admit nothing new.** -/
theorem admits (h : rs.Narrows rs') {hit : Range α → Bool} (hadmits : rs'.admits hit = true) :
    rs.admits hit = true := by
  obtain ⟨hincluded, hexcluded⟩ := (admits_iff rs' hit).1 hadmits
  refine (admits_iff rs hit).2 ?_
  cases h with
  | exclude r =>
      refine ⟨hincluded, fun r' hr' => hexcluded r' ?_⟩
      exact List.mem_append_left [r] hr'
  | drop before r after hdrop hleft =>
      -- a range that is left is hit, and it was there before
      obtain ⟨r', hr', hhit⟩ := hincluded.resolve_left hleft
      refine ⟨Or.inr ⟨r', ?_, hhit⟩, hexcluded⟩
      rw [hdrop]
      rcases List.mem_append.1 hr' with hmem | hmem
      · exact List.mem_append_left _ hmem
      · exact List.mem_append_right _ (List.mem_cons_of_mem r hmem)

end Rules.Narrows

theorem Rules.Narrows.passes {rs rs' : Rules Int} {d : Dial} {t : Instant} (h : rs.Narrows rs')
    (hpasses : rs'.Passes d t) : rs.Passes d t := by
  obtain ⟨hit, hhit, hadmits⟩ :=
    (Rules.passes_iff_of_isEmpty_eq_false h.isEmpty_eq_false).1 hpasses
  exact Or.inr ⟨hit, hhit, h.admits hadmits⟩

/-- A group with narrower rules admits nothing new. -/
theorem Group.Narrows.admits {g g' : Group} {t : Instant} (h : g.Narrows g')
    (hadmits : g'.admits t = true) : g.admits t = true := by
  rw [admits_iff_passes] at hadmits ⊢
  intro k
  have hpasses := hadmits k
  cases h with
  | dates h =>
      by_cases hk : k = .dates
      · subst hk
        exact h.admits hpasses
      · exact (passes_withDates_iff _ hk).1 hpasses
  | dial d h =>
      by_cases hk : k = .dial d
      · subst hk
        rw [passes_dial_iff, rules_modify_self] at hpasses
        exact h.passes hpasses
      · exact (passes_modify_iff _ hk).1 hpasses

/-- One step in one group lets no new instant belong to any. -/
theorem NarrowsOne.anyAdmits {gs gs' : List Group} {t : Instant} (h : NarrowsOne gs gs')
    (hadmits : anyAdmits gs' t = true) : anyAdmits gs t = true := by
  unfold Timetable.anyAdmits at *
  induction h with
  | head gs h =>
      rw [List.any_cons, Bool.or_eq_true] at hadmits ⊢
      exact hadmits.imp_left h.admits
  | tail g _ ih =>
      rw [List.any_cons, Bool.or_eq_true] at hadmits ⊢
      exact hadmits.imp_right ih

/-- However many steps are taken, no new instant belongs to any of the groups. -/
theorem anyAdmits_of_narrowsOne {gs gs' : List Group} {t : Instant}
    (h : Relation.ReflTransGen NarrowsOne gs gs') (hadmits : anyAdmits gs' t = true) :
    anyAdmits gs t = true := by
  induction h with
  | refl => exact hadmits
  | tail _ hstep ih => exact ih (hstep.anyAdmits hadmits)

namespace Schedule

variable {s s' : Schedule}

/-- What admits less is found farther away, if it is found at all. -/
theorem search_of_admits_imp (h : ∀ u, s'.admits u = true → s.admits u = true) {dir : Direction}
    {t u' : Instant} (hu' : s'.search dir t = .ok u') :
    ∃ u, s.search dir t = .ok u ∧ dir.Precedes u u' := by
  obtain ⟨hwindow, hadmits⟩ := mem_events.1 (search_eq_ok_iff.1 hu').1
  have hmem : u' ∈ s.events dir t := mem_events.2 ⟨hwindow, h u' hadmits⟩
  obtain ⟨u, hu⟩ := exists_search_eq_ok_iff.2 ⟨u', hmem⟩
  exact ⟨u, hu, (search_eq_ok_iff.1 hu).2 u' hmem⟩

/-- **Narrower rules never move an answer closer.**  The rules of a schedule are made narrower, by
as many steps as one likes.  Then nothing new belongs to it.  Where it still has a next time, it had
one before, and no later one, and where it still has a previous time, it had one before, and no
earlier one. -/
theorem narrowing_moves_answers_away (h : Relation.ReflTransGen NarrowsOne s.groups s'.groups) :
    (∀ u, s'.admits u = true → s.admits u = true) ∧
      ∀ t, (∀ u', s'.next t = .ok u' → ∃ u, s.next t = .ok u ∧ u ≤ u') ∧
        ∀ u', s'.previous t = .ok u' → ∃ u, s.previous t = .ok u ∧ u' ≤ u := by
  have hadmits (u : Instant) (hu : s'.admits u = true) : s.admits u = true :=
    anyAdmits_of_narrowsOne h hu
  exact ⟨hadmits, fun t => ⟨fun u' hu' => search_of_admits_imp hadmits hu',
    fun u' hu' => search_of_admits_imp hadmits hu'⟩⟩

/-- From half past eleven, the next hour was noon and is one o'clock when noon is excluded; when the
evening is dropped as well, the hour before was that of the same evening and is five o'clock. -/
theorem narrowing_moves_answers_away_at_noon :
    let zero : Rules Int := { included := [Range.single 0] }
    let day : Range Int := Range.of 9 17 false 1
    let evening : Range Int := Range.single 20
    let wide : Group := { hours.included := [evening, day], minutes := zero, seconds := zero }
    let less : Group :=
      { hours := ⟨[evening, day], [Range.single 12]⟩, minutes := zero, seconds := zero }
    let least : Group := { hours := ⟨[day], [Range.single 12]⟩, minutes := zero, seconds := zero }
    let s : Schedule := ⟨"wide", [wide]⟩
    let s' : Schedule := ⟨"narrow", [least]⟩
    let date : Date := ⟨2024, 2, 29, by decide⟩
    let t : Instant := ⟨date, ⟨11, 30, 0⟩, 0⟩
    let t' : Instant := ⟨date, ⟨22, 0, 0⟩, 0⟩
    (NarrowsOne [wide] [less] ∧ NarrowsOne [less] [least]) ∧
      (s'.next t = .ok (Instant.atSecond date ⟨13, 0, 0⟩) ∧
        ∃ u, s.next t = .ok u ∧ u ≤ Instant.atSecond date ⟨13, 0, 0⟩) ∧
      s'.previous t' = .ok (Instant.atSecond date ⟨17, 0, 0⟩) ∧
        ∃ u, s.previous t' = .ok u ∧ Instant.atSecond date ⟨17, 0, 0⟩ ≤ u := by
  intro zero day evening wide less least s s' date t t'
  have hless : NarrowsOne [wide] [less] := .head [] (.dial .hours (.exclude (Range.single 12)))
  have hleast : NarrowsOne [less] [least] :=
    .head [] (.dial .hours (.drop [] evening [day] rfl (List.cons_ne_nil day [])))
  have hnext : s'.next t = .ok (Instant.atSecond date ⟨13, 0, 0⟩) := by decide +kernel
  have hprevious : s'.previous t' = .ok (Instant.atSecond date ⟨17, 0, 0⟩) := by decide +kernel
  have hsteps : Relation.ReflTransGen NarrowsOne s.groups s'.groups :=
    (Relation.ReflTransGen.single hless).tail hleast
  obtain ⟨-, haway⟩ := narrowing_moves_answers_away hsteps
  exact ⟨⟨hless, hleast⟩, ⟨hnext, (haway t).1 _ hnext⟩, hprevious, (haway t').2 _ hprevious⟩

end Schedule

end Timetable

/-
**Groups combine as a union, and order does not matter.**

An instant belongs to a schedule if some group admits it, and the order in which the groups are
asked is not seen in the answer.  A search finds the nearest event in its window whatever the order
of the groups, so the search of two lists of groups together is the nearer one of what the searches
of each of them find.  Neither does it matter how often a group is given.

The same holds for the ranges of a rule: the test of a rule asks for a range to be hit among those
included and for none among those excluded.

Main definitions:

* `Direction.nearer` — the one of two instants that a search meets first;
* `eitherAnswer` — the answers of two searches taken together;
* `Rules.SameRanges`, `Group.SameRanges` — the same ranges in whatever order and however often;
* `Schedule.SameAnswers` — schedules that answer all three queries alike.

Main results:

* `Direction.Finds.union` — the search of a union finds the nearer one of what two searches find;
* `Schedule.search_of_admits_or` — the search for several lists of groups at once;
* `Group.SameRanges.admits_eq` — the test of a group does not depend on the order of its ranges;
* `Schedule.groups_form_union` — **groups combine as a union, whatever their order and that of their
  ranges**.
-/

import Timetable.Proofs.SearchWindow

set_option relaxedAutoImplicit false
set_option autoImplicit false

namespace Timetable

/-! ### The search of a union -/

namespace Direction

variable {dir : Direction}

/-- The set determines what a search of it yields. -/
theorem Finds.unique {α : Type} [PartialOrder α] {s : Set α} {a b : Option α} (ha : dir.Finds s a)
    (hb : dir.Finds s b) : a = b := by
  cases b with
  | none => exact ha.eq_none_iff.2 hb
  | some x => exact ha.eq_some_iff.2 hb

/-- The one of two instants that the walk meets first: the earlier one into the future, the later
one into the past. -/
def nearer : Direction → Instant → Instant → Instant
  | forward => min
  | backward => max

theorem IsNearest.union {s t : Set Instant} {x y : Instant} (hx : dir.IsNearest s x)
    (hy : dir.IsNearest t y) : dir.IsNearest (s ∪ t) (dir.nearer x y) := by
  cases dir with
  | forward => exact IsLeast.union hx hy
  | backward => exact IsGreatest.union hx hy

/-- **The search of a union finds the nearer one of what the searches of its parts find.** -/
theorem Finds.union {s t : Set Instant} {a b : Option Instant} (ha : dir.Finds s a)
    (hb : dir.Finds t b) : dir.Finds (s ∪ t) (a.merge dir.nearer b) := by
  cases a with
  | none =>
      have hs : s = ∅ := ha
      rw [hs, Set.empty_union, Option.merge_none_left]
      exact hb
  | some x =>
      cases b with
      | none =>
          have ht : t = ∅ := hb
          rw [ht, Set.union_empty, Option.merge_none_right]
          exact ha
      | some y => exact IsNearest.union ha hb

end Direction

/-- The answers of two searches taken together.  Of two instants it is the chosen one, of one
instant that one, and if neither search has found anything it is the error for the text. -/
def eitherAnswer (choose : Instant → Instant → Instant) (source : String) :
    Except ScheduleError Instant → Except ScheduleError Instant → Except ScheduleError Instant
  | .ok u, .ok v => .ok (choose u v)
  | .ok u, .error _ => .ok u
  | .error _, .ok v => .ok v
  | .error _, .error _ => .error (.noValidTime source)

/-! ### Ranges in another order -/

/-- The same ranges are included and the same ones are excluded, in whatever order and however
often. -/
structure Rules.SameRanges {α : Type} (rs rs' : Rules α) : Prop where
  included : ∀ r, r ∈ rs.included ↔ r ∈ rs'.included
  excluded : ∀ r, r ∈ rs.excluded ↔ r ∈ rs'.excluded

/-- The groups have the same ranges in the rules of every kind. -/
structure Group.SameRanges (g g' : Group) : Prop where
  dates : g.dates.SameRanges g'.dates
  dial : ∀ d, (g.rules d).SameRanges (g'.rules d)

theorem eq_nil_iff_of_mem_iff {α : Type} {l l' : List α} (h : ∀ a, a ∈ l ↔ a ∈ l') :
    l = [] ↔ l' = [] := by
  rw [List.eq_nil_iff_forall_not_mem, List.eq_nil_iff_forall_not_mem]
  exact forall_congr' fun a => not_congr (h a)

namespace Rules.SameRanges

variable {α : Type} {rs rs' : Rules α}

theorem refl (rs : Rules α) : rs.SameRanges rs := ⟨fun _ => Iff.rfl, fun _ => Iff.rfl⟩

theorem isEmpty_eq (h : rs.SameRanges rs') : rs.isEmpty = rs'.isEmpty := by
  have hincluded := eq_nil_iff_of_mem_iff h.included
  have hexcluded := eq_nil_iff_of_mem_iff h.excluded
  rw [Bool.eq_iff_iff]
  simp only [isEmpty, Bool.and_eq_true, List.isEmpty_iff, hincluded, hexcluded]

/-- **The test of a rule does not depend on the order of its ranges.** -/
theorem admits_eq (h : rs.SameRanges rs') (hit : Range α → Bool) :
    rs.admits hit = rs'.admits hit := by
  rw [Bool.eq_iff_iff, admits_iff, admits_iff]
  simp only [eq_nil_iff_of_mem_iff h.included, h.included, h.excluded]

end Rules.SameRanges

namespace Group.SameRanges

variable {g g' : Group}

theorem admitsDate_eq (h : g.SameRanges g') (d : Date) : g.admitsDate d = g'.admitsDate d := by
  have hmonth : g.daysOfMonth.SameRanges g'.daysOfMonth := h.dial .daysOfMonth
  have hweek : g.daysOfWeek.SameRanges g'.daysOfWeek := h.dial .daysOfWeek
  unfold admitsDate admitsDayOfMonth admitsDayOfWeek
  rw [h.dates.admits_eq, hmonth.isEmpty_eq, hweek.admits_eq]
  simp only [hmonth.admits_eq]

theorem admitsClock_eq (h : g.SameRanges g') (c : Clock) : g.admitsClock c = g'.admitsClock c := by
  have hhours : g.hours.SameRanges g'.hours := h.dial .hours
  have hminutes : g.minutes.SameRanges g'.minutes := h.dial .minutes
  have hseconds : g.seconds.SameRanges g'.seconds := h.dial .seconds
  unfold admitsClock admitsHour admitsMinute admitsSecond
  rw [hhours.admits_eq, hminutes.admits_eq, hseconds.admits_eq]

/-- **The test of a group does not depend on the order of its ranges.** -/
theorem admits_eq (h : g.SameRanges g') (t : Instant) : g.admits t = g'.admits t := by
  unfold admits
  rw [h.admitsDate_eq, h.admitsClock_eq]

end Group.SameRanges

/-! ### Groups in another order -/

/-- Instants that belong to several lists of groups belong to one of them. -/
theorem anyAdmits_append (gs hs : List Group) (t : Instant) :
    anyAdmits (gs ++ hs) t = (anyAdmits gs t || anyAdmits hs t) :=
  List.any_append

theorem anyAdmits_eq_of_mem_iff {gs hs : List Group} (h : ∀ g, g ∈ gs ↔ g ∈ hs) (t : Instant) :
    anyAdmits gs t = anyAdmits hs t := by
  unfold anyAdmits
  rw [Bool.eq_iff_iff, List.any_eq_true, List.any_eq_true]
  exact exists_congr fun g => and_congr_left' (h g)

theorem anyAdmits_eq_of_sameRanges {gs hs : List Group} (h : List.Forall₂ Group.SameRanges gs hs)
    (t : Instant) : anyAdmits gs t = anyAdmits hs t := by
  unfold anyAdmits
  induction h with
  | nil => rfl
  | cons hg _ ih => rw [List.any_cons, List.any_cons, hg.admits_eq, ih]

namespace Schedule

/-- The schedules answer every query alike.  An error names the text of its own schedule. -/
def SameAnswers (s s' : Schedule) : Prop :=
  ∀ t, s.admits t = s'.admits t ∧
    s.next t = (s'.next t).mapError (fun _ => .noValidTime s.source) ∧
      s.previous t = (s'.previous t).mapError fun _ => .noValidTime s.source

variable {s a b : Schedule}

/-- **The search of a schedule to which the instants of two others belong** yields the nearer one of
their answers. -/
theorem search_of_admits_or (h : ∀ u, s.admits u = (a.admits u || b.admits u)) (dir : Direction)
    (t : Instant) :
    s.search dir t = eitherAnswer dir.nearer s.source (a.search dir t) (b.search dir t) := by
  have hevents : ∀ u, u ∈ a.events dir t ∪ b.events dir t ↔ u ∈ s.events dir t := by
    intro u
    simp only [Set.mem_union, mem_events, h, Bool.or_eq_true, and_or_left]
  have hunion := ((a.finds_events dir t).union (b.finds_events dir t)).congr hevents
  unfold search
  rw [(s.finds_events dir t).unique hunion]
  cases nearest? a.groups dir t <;> cases nearest? b.groups dir t <;> rfl

/-- A search depends on a schedule only through the instants that belong to it. -/
theorem search_of_admits_eq (h : ∀ u, s.admits u = a.admits u) (dir : Direction) (t : Instant) :
    s.search dir t = (a.search dir t).mapError fun _ => .noValidTime s.source := by
  have hevents : ∀ u, u ∈ a.events dir t ↔ u ∈ s.events dir t := by
    intro u
    simp only [mem_events, h]
  unfold search
  rw [(s.finds_events dir t).unique ((a.finds_events dir t).congr hevents)]
  cases nearest? a.groups dir t <;> rfl

theorem sameAnswers_of_admits_eq (h : ∀ u, s.admits u = a.admits u) : s.SameAnswers a :=
  fun t => ⟨h t, search_of_admits_eq h .forward t, search_of_admits_eq h .backward t⟩

/-- **Groups combine as a union, whatever their order.**  To a schedule with the groups of two others
belongs what belongs to either, its next time is the earlier and its previous time the later of
theirs, and there is none only if neither has one.  So nothing changes if groups are given in another
order or several times, nor if the ranges in them are. -/
theorem groups_form_union (s : Schedule) :
    (∀ a b : Schedule, s.groups = a.groups ++ b.groups → ∀ t,
      s.admits t = (a.admits t || b.admits t) ∧
        s.next t = eitherAnswer min s.source (a.next t) (b.next t) ∧
          s.previous t = eitherAnswer max s.source (a.previous t) (b.previous t)) ∧
      (∀ a : Schedule, (∀ g, g ∈ s.groups ↔ g ∈ a.groups) → s.SameAnswers a) ∧
        ∀ a : Schedule, List.Forall₂ Group.SameRanges s.groups a.groups → s.SameAnswers a := by
  refine ⟨fun a b hgroups t => ?_, fun a hmem => ?_, fun a hranges => ?_⟩
  · have hadmits (u : Instant) : s.admits u = (a.admits u || b.admits u) := by
      unfold admits
      rw [hgroups, anyAdmits_append]
    exact ⟨hadmits t, search_of_admits_or hadmits .forward t,
      search_of_admits_or hadmits .backward t⟩
  · exact sameAnswers_of_admits_eq fun u => anyAdmits_eq_of_mem_iff hmem u
  · exact sameAnswers_of_admits_eq fun u => anyAdmits_eq_of_sameRanges hranges u

/-- Half past noon of a leap day's eve, between two times of which one recurs on no other day; with
the groups turned round and repeated, and with the hours of one of them turned round and repeated. -/
theorem groups_form_union_at_noon :
    let zero : Rules Int := { included := [Range.single 0] }
    let twice : Group :=
      { hours.included := [Range.single 6, Range.single 18], minutes := zero, seconds := zero }
    let twice' : Group :=
      { hours.included := [Range.single 18, Range.single 6, Range.single 18],
        minutes := zero, seconds := zero }
    let once : Group :=
      { dates.included := [Range.single (.full 2024 2 28)], hours.included := [Range.single 12],
        minutes := zero, seconds := zero }
    let s : Schedule := ⟨"both", [twice, once]⟩
    let a : Schedule := ⟨"twice a day", [twice]⟩
    let b : Schedule := ⟨"once", [once]⟩
    let turned : Schedule := ⟨"turned", [once, twice, once]⟩
    let turned' : Schedule := ⟨"turned inside", [twice', once]⟩
    let day : Date := ⟨2024, 2, 28, by decide⟩
    let t : Instant := ⟨day, ⟨12, 30, 0⟩, 500000000⟩
    (s.groups = a.groups ++ b.groups ∧ (∀ g, g ∈ s.groups ↔ g ∈ turned.groups) ∧
        List.Forall₂ Group.SameRanges s.groups turned'.groups) ∧
      (s.next t = .ok (Instant.atSecond day ⟨18, 0, 0⟩) ∧
        s.previous t = .ok (Instant.atSecond day ⟨12, 0, 0⟩)) ∧
      s.SameAnswers turned ∧ s.SameAnswers turned' := by
  intro zero twice twice' once s a b turned turned' day t
  have hmem : ∀ g, g ∈ s.groups ↔ g ∈ turned.groups := by
    intro g
    simp only [s, turned, List.mem_cons, List.not_mem_nil, or_false]
    tauto
  have hranges : List.Forall₂ Group.SameRanges s.groups turned'.groups := by
    refine List.Forall₂.cons ⟨Rules.SameRanges.refl _, fun d => ?_⟩
      (List.Forall₂.cons ⟨Rules.SameRanges.refl _, fun d => Rules.SameRanges.refl _⟩
        List.Forall₂.nil)
    cases d with
    | hours =>
        refine ⟨fun r => ?_, fun r => Iff.rfl⟩
        simp only [Group.rules, twice, twice', List.mem_cons, List.not_mem_nil, or_false]
        tauto
    | _ => exact Rules.SameRanges.refl _
  obtain ⟨hunion, hturned, hturned'⟩ := groups_form_union s
  obtain ⟨-, hnext, hprevious⟩ := hunion a b rfl t
  -- the search of the group for one day finds nothing later, and something nearer before
  have hlater : a.next t = .ok (Instant.atSecond day ⟨18, 0, 0⟩) := by decide +kernel
  have hlater' : b.next t = .error (.noValidTime "once") := by decide +kernel
  have hearlier : a.previous t = .ok (Instant.atSecond day ⟨6, 0, 0⟩) := by decide +kernel
  have hearlier' : b.previous t = .ok (Instant.atSecond day ⟨12, 0, 0⟩) := by decide +kernel
  rw [hlater, hlater'] at hnext
  rw [hearlier, hearlier'] at hprevious
  refine ⟨⟨rfl, hmem, hranges⟩, ⟨hnext, hprevious.trans ?_⟩, hturned turned hmem,
    hturned' turned' hranges⟩
  exact congrArg Except.ok (max_eq_right (by decide))

end Schedule

end Timetable

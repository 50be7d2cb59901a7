/-
**Walking along a schedule and back.**

Asking for the next event again and again, each time from the answer before, lists the events of a
schedule one by one.  The list is complete, since every step leaves nothing behind in its gap, and it
can be read backwards: one second before an event lies in the gap in front of it, and up to there the
event before is the previous one.

The way back needs an argument of its own because its windows hang on other dates than those of the
way forth, the dates of the seconds just before the events; these are no farther from the event
before than the event itself.

Main definitions:

* `walk` — the answers of several queries, each made from the answer before;
* `Schedule.next?`, `Schedule.before?` — one step along the events, forth and back.

Main results:

* `Schedule.before?_of_next` — **a step forth can be undone**;
* `Schedule.mem_iff_of_isChain` — steps forth meet every event up to the last of them;
* `Schedule.walk_complete_and_retraced` — **a walk meets every event on its way and can be
  retraced**.
-/

import Mathlib.Data.List.Chain
import Timetable.Proofs.Coherence

set_option relaxedAutoImplicit false
set_option autoImplicit false

namespace Timetable

/-! ### Walks -/

/-- The answers of `k` successive queries, each made from the answer before; there are none if one
of the queries fails. -/
def walk (query : Instant → Option Instant) : Nat → Instant → Option (List Instant)
  | 0, _ => some []
  | k + 1, t => (query t).bind fun u => (walk query k u).map (u :: ·)

/-- A walk is a list in which every instant is the answer for the one before. -/
theorem walk_eq_some_iff {query : Instant → Option Instant} {k : Nat} {t : Instant}
    {us : List Instant} :
    walk query k t = some us ↔
      us.length = k ∧ List.IsChain (fun u v => query u = some v) (t :: us) := by
  induction k generalizing t us with
  | zero =>
      rw [walk, Option.some.injEq, List.length_eq_zero_iff, eq_comm]
      constructor
      · rintro rfl
        exact ⟨rfl, List.isChain_singleton t⟩
      · exact And.left
  | succ k ih =>
      simp only [walk, Option.bind_eq_some_iff, Option.map_eq_some_iff]
      constructor
      · rintro ⟨u, hu, us, hus, rfl⟩
        obtain ⟨hlength, hchain⟩ := ih.1 hus
        exact ⟨congrArg Nat.succ hlength, List.isChain_cons_cons.2 ⟨hu, hchain⟩⟩
      · rintro ⟨hlength, hchain⟩
        cases us with
        | nil => cases hlength
        | cons u us =>
            obtain ⟨hu, hus⟩ := List.isChain_cons_cons.1 hchain
            exact ⟨u, hu, us, ih.2 ⟨Nat.succ.inj hlength, hus⟩, rfl⟩

namespace Schedule

variable {s : Schedule} {t u v : Instant} {us : List Instant}

/-! ### Single steps -/

/-- One step forth: the next event. -/
def next? (s : Schedule) (t : Instant) : Option Instant := (s.next t).toOption

/-- One step back: the previous event up to one second earlier. -/
def before? (s : Schedule) (t : Instant) : Option Instant :=
  t.prev?.bind fun r => (s.previous r).toOption

theorem next?_eq_some_iff : s.next? t = some u ↔ s.next t = .ok u := by
  unfold next?
  cases s.next t <;> simp [Except.toOption]

theorem lt_of_next? (h : s.next? t = some u) : t < u :=
  reaches_of_search (next?_eq_some_iff.1 h)

/-- **A step forth can be undone**: from the event after another one a step back leads to it. -/
theorem before?_of_next (hwhole : u.IsWhole) (hadmits : s.admits u = true)
    (h : s.next u = .ok v) : s.before? v = some u := by
  have huv : u < v := reaches_of_search h
  have hv : v.IsWhole := (isWhole_of_search h).1
  have hseconds := (Instant.lt_iff_of_isWhole hv).1 huv
  unfold before?
  cases hr : v.prev? with
  | none => exact absurd (Instant.le_seconds_of_prev?_eq_none hr u) (not_le.2 hseconds)
  | some r =>
      have hprev := Instant.seconds_prev? hr
      have hur : u ≤ r := (Instant.le_iff_of_isWhole hwhole).2 (by omega)
      have hrv : r < v := (Instant.lt_iff_of_isWhole hv).2 (by omega)
      rw [Option.bind_some, previous_of_next hwhole hadmits h hur hrv]
      rfl

/-! ### Several steps -/

/-- Steps forth meet later and later instants. -/
theorem pairwise_of_isChain (h : List.IsChain (fun u v => s.next? u = some v) us) :
    us.Pairwise (· < ·) :=
  List.isChain_iff_pairwise.1 (h.imp fun _ _ => lt_of_next?)

/-- **Steps forth meet every event** after the reference and up to one that they meet. -/
theorem mem_iff_of_isChain (h : List.IsChain (fun u v => s.next? u = some v) (t :: us)) :
    v ∈ us ↔ v.IsWhole ∧ t < v ∧ (∃ w ∈ us, v ≤ w) ∧ s.admits v = true := by
  -- each step leaves no event behind between the instant it starts from and the one it meets
  induction us generalizing t with
  | nil => simp
  | cons u us ih =>
      obtain ⟨hu, hus⟩ := List.isChain_cons_cons.1 h
      have hnext := next?_eq_some_iff.1 hu
      have htu := lt_of_next? hu
      constructor
      · intro hv
        rcases List.mem_cons.1 hv with rfl | hmem
        · obtain ⟨hwhole, hadmits⟩ := isWhole_of_search hnext
          exact ⟨hwhole, htu, ⟨v, hv, le_refl v⟩, hadmits⟩
        · obtain ⟨hwhole, huv, -, hadmits⟩ := (ih hus).1 hmem
          exact ⟨hwhole, lt_trans htu huv, ⟨v, hv, le_refl v⟩, hadmits⟩
      · rintro ⟨hwhole, htv, ⟨w, hw, hvw⟩, hadmits⟩
        rcases le_or_gt v u with hvu | huv
        · have heq : v = u := eq_of_between hnext hwhole hadmits htv hvu
          exact List.mem_cons.2 (Or.inl heq)
        · have hw' : w ∈ us := by
            rcases List.mem_cons.1 hw with rfl | hw'
            · exact absurd hvw (not_le.2 huv)
            · exact hw'
          exact List.mem_cons_of_mem u ((ih hus).2 ⟨hwhole, huv, ⟨w, hw', hvw⟩, hadmits⟩)

/-- Steps forth that start from an event can be undone one by one. -/
theorem isChain_before? (hwhole : t.IsWhole) (hadmits : s.admits t = true)
    (h : List.IsChain (fun u v => s.next? u = some v) (t :: us)) :
    List.IsChain (fun u v => s.before? v = some u) (t :: us) := by
  induction us generalizing t with
  | nil => exact List.isChain_singleton t
  | cons u us ih =>
      obtain ⟨hu, hus⟩ := List.isChain_cons_cons.1 h
      have hnext := next?_eq_some_iff.1 hu
      obtain ⟨hwhole', hadmits'⟩ := isWhole_of_search hnext
      exact List.isChain_cons_cons.2
        ⟨before?_of_next hwhole hadmits hnext, ih hwhole' hadmits' hus⟩

/-- The events that steps forth meet can be met in opposite order. -/
theorem isChain_before?_tail (h : List.IsChain (fun u v => s.next? u = some v) (t :: us)) :
    List.IsChain (fun u v => s.before? v = some u) us := by
  cases us with
  | nil => exact List.isChain_nil
  | cons u us =>
      obtain ⟨hu, hus⟩ := List.isChain_cons_cons.1 h
      obtain ⟨hwhole, hadmits⟩ := isWhole_of_search (next?_eq_some_iff.1 hu)
      exact isChain_before? hwhole hadmits hus

/-- Among increasing instants the last one is the latest. -/
theorem exists_le_iff_of_pairwise (h : (us ++ [u]).Pairwise (· < ·)) :
    (∃ w ∈ us ++ [u], v ≤ w) ↔ v ≤ u := by
  constructor
  · rintro ⟨w, hw, hvw⟩
    rcases List.mem_append.1 hw with hw | hw
    · have hwu := (List.pairwise_append.1 h).2.2 w hw u (List.mem_singleton_self u)
      exact le_of_lt (lt_of_le_of_lt hvw hwu)
    · exact List.mem_singleton.1 hw ▸ hvw
  · intro hvu
    exact ⟨u, List.mem_append.2 (Or.inr (List.mem_singleton_self u)), hvu⟩

/-- **A walk meets every event on its way and can be retraced.**  If `k + 1` successive searches for
the next event succeed, their answers increase and are exactly the whole seconds of the schedule
after the reference and up to the last answer, and `k` steps back from the last answer succeed and
meet the other answers in opposite order. -/
theorem walk_complete_and_retraced {k : Nat} (h : walk s.next? (k + 1) t = some (us ++ [u])) :
    (us ++ [u]).Pairwise (· < ·) ∧
      (∀ v, v ∈ us ++ [u] ↔ v.IsWhole ∧ t < v ∧ v ≤ u ∧ s.admits v = true) ∧
        walk s.before? k u = some us.reverse := by
  obtain ⟨hlength, hchain⟩ := walk_eq_some_iff.1 h
  have hsorted := (pairwise_of_isChain hchain).of_cons
  refine ⟨hsorted, fun v => ?_, ?_⟩
  · rw [mem_iff_of_isChain hchain, exists_le_iff_of_pairwise hsorted]
  · rw [walk_eq_some_iff, List.length_reverse, ← List.reverse_concat, List.isChain_reverse]
    exact ⟨by simpa using hlength, isChain_before?_tail hchain⟩

/-- Three steps over two midnights, from a quarter past the last second of a year: every step starts
or ends at the edge of a day. -/
theorem walk_over_midnights :
    let s : Schedule := ⟨"{s(0)m(0)h(0)} {s(59)m(59)h(23)}",
      [{ hours.included := [Range.single 0]
         minutes.included := [Range.single 0]
         seconds.included := [Range.single 0] },
       { hours.included := [Range.single 23]
         minutes.included := [Range.single 59]
         seconds.included := [Range.single 59] }]⟩
    let newYear : Date := ⟨2024, 1, 1, by decide⟩
    let t : Instant := ⟨⟨2023, 12, 31, by decide⟩, Clock.last, 250000000⟩
    let us := [Instant.atSecond newYear Clock.first, Instant.atSecond newYear Clock.last]
    let u := Instant.atSecond ⟨2024, 1, 2, by decide⟩ Clock.first
    walk s.next? 3 t = some (us ++ [u]) ∧
      (us ++ [u]).Pairwise (· < ·) ∧
        (∀ v, v ∈ us ++ [u] ↔ v.IsWhole ∧ t < v ∧ v ≤ u ∧ s.admits v = true) ∧
          walk s.before? 2 u = some us.reverse := by
  intro s newYear t us u
  have hwalk : walk s.next? 3 t = some (us ++ [u]) := by decide +kernel
  exact ⟨hwalk, walk_complete_and_retraced hwalk⟩

/-- **Only whole seconds are met.**  A schedule admits an instant whatever its fraction of a second, so
with every fraction in between the answers of a walk are not all the instants that it admits. -/
theorem walk_passes_fractions :
    let s : Schedule := ⟨"s(*)", [{ seconds.included := [Range.of 0 59 false 1] }]⟩
    let day : Date := ⟨2024, 1, 1, by decide⟩
    let t := Instant.atSecond day Clock.first
    let us := [Instant.atSecond day ⟨0, 0, 1⟩]
    let u := Instant.atSecond day ⟨0, 0, 2⟩
    walk s.next? 2 t = some (us ++ [u]) ∧
      ¬ ∀ v, v ∈ us ++ [u] ↔ t < v ∧ v ≤ u ∧ s.admits v = true := by
  intro s day t us u
  refine ⟨by decide +kernel, fun hall => ?_⟩
  let v : Instant := ⟨day, ⟨0, 0, 1⟩, 500000000⟩
  have hmet : v ∈ us ++ [u] := (hall v).2 ⟨by decide, by decide, by decide +kernel⟩
  exact absurd hmet (by decide)

end Schedule

end Timetable

/-
**Searches from neighbouring references agree.**

An answer to a search leaves a gap behind: no whole second of the schedule lies between the reference
and the answer.  Every other reference in that gap is answered out of the same gap, although its
window is another one, since the window only has to reach as far as the answer and moving the
reference towards the answer brings it nearer.  So a search from inside the gap in the same direction
has the same answer, and a search in the other direction does not stop before it has left the gap.

The reference itself is the one point where the directions differ: into the past it may be found,
into the future it may not.

Main results:

* `Schedule.eq_of_between` — **nothing of the schedule lies between a reference and the answer**;
* `Schedule.search_of_between` — a reference on the way to the answer has the same answer;
* `Schedule.previous_of_next` — between two neighbouring events the earlier one is the previous one;
* `Schedule.coherent` — **the two queries agree at every reference in between**.
-/

import Timetable.Proofs.SearchWindow

set_option relaxedAutoImplicit false
set_option autoImplicit false

namespace Timetable

namespace Direction

variable {dir : Direction} {t u v : Instant}

/-! ### References on the way -/

theorem Reaches.precedes (h : dir.Reaches t u) : dir.Precedes t u := by
  cases dir with
  | forward => exact le_of_lt h
  | backward => exact h

/-- What lies behind a later reference lies behind an earlier one. -/
theorem Reaches.of_precedes (h : dir.Reaches u v) (htu : dir.Precedes t u) :
    dir.Reaches t v := by
  cases dir with
  | forward => exact lt_of_le_of_lt htu h
  | backward => exact le_trans h htu

/-- What is met on the walk is on the same day or on a later one. -/
theorem daysAhead_nonneg (h : dir.Precedes t u) : 0 ≤ dir.daysAhead t.date u.date := by
  cases dir
  all_goals
    have hdate := Date.le_def.1 (Instant.date_le_of_le h)
    simp only [daysAhead, Date.daysUntil]
    omega

/-- The nearer end of a stretch of the walk is no more days away than the farther one. -/
theorem daysAhead_le_of_precedes (dir : Direction) (t : Instant) (h : dir.Precedes u v) :
    dir.daysAhead t.date u.date ≤ dir.daysAhead t.date v.date := by
  have hsum := dir.daysAhead_trans t.date u.date v.date
  have := daysAhead_nonneg h
  omega

/-- Moving the reference towards an instant brings it nearer. -/
theorem daysAhead_le_of_reference (dir : Direction) (v : Instant) (h : dir.Precedes t u) :
    dir.daysAhead u.date v.date ≤ dir.daysAhead t.date v.date := by
  have hsum := dir.daysAhead_trans t.date u.date v.date
  have := daysAhead_nonneg h
  omega

end Direction

namespace Schedule

variable {s : Schedule} {dir : Direction} {t r u v : Instant}

/-! ### The gap in front of an answer -/

/-- What is found is a whole second of the schedule. -/
theorem isWhole_of_search (h : s.search dir t = .ok u) : u.IsWhole ∧ s.admits u = true := by
  obtain ⟨⟨hwhole, -, -⟩, hadmits⟩ := mem_events.1 (search_eq_ok_iff.1 h).1
  exact ⟨hwhole, hadmits⟩

theorem reaches_of_search (h : s.search dir t = .ok u) : dir.Reaches t u :=
  (mem_events.1 (search_eq_ok_iff.1 h).1).1.2.1

/-- **Nothing of the schedule lies between a reference and the answer.** -/
theorem eq_of_between (h : s.search dir t = .ok u) (hwhole : v.IsWhole)
    (hadmits : s.admits v = true) (hreaches : dir.Reaches t v) (hvu : dir.Precedes v u) :
    v = u := by
  obtain ⟨hmem, hnearest⟩ := search_eq_ok_iff.1 h
  obtain ⟨⟨-, -, hdays⟩, -⟩ := mem_events.1 hmem
  have hle := dir.daysAhead_le_of_precedes t hvu
  have hevent : v ∈ s.events dir t :=
    mem_events.2 ⟨⟨hwhole, hreaches, le_trans hle hdays⟩, hadmits⟩
  exact hvu.antisymm (hnearest v hevent)

/-- **A reference on the way to the answer has the same answer.** -/
theorem search_of_between (h : s.search dir t = .ok u) (htr : dir.Precedes t r)
    (hru : dir.Reaches r u) : s.search dir r = .ok u := by
  obtain ⟨⟨hwhole, -, hdays⟩, hadmits⟩ := mem_events.1 (search_eq_ok_iff.1 h).1
  have hle := dir.daysAhead_le_of_reference u htr
  refine search_eq_ok_iff.2 ⟨mem_events.2 ⟨⟨hwhole, hru, le_trans hle hdays⟩, hadmits⟩, ?_⟩
  intro v hv
  obtain ⟨⟨hwhole', hrv, -⟩, hadmits'⟩ := mem_events.1 hv
  -- the window of `r` reaches farther than that of `t`, but what it adds comes after the answer
  rcases Direction.Precedes.total dir u v with huv | hvu
  · exact huv
  · rw [eq_of_between h hwhole' hadmits' (hrv.of_precedes htr) hvu]
    exact Direction.Precedes.refl dir u

/-- An event is its own previous one. -/
theorem previous_self (hwhole : u.IsWhole) (hadmits : s.admits u = true) :
    s.previous u = .ok u := by
  have hzero := Direction.daysAhead_self .backward u.date
  refine search_eq_ok_iff.2 ⟨mem_events.2 ⟨⟨hwhole, le_refl u, by omega⟩, hadmits⟩, ?_⟩
  intro v hv
  exact (mem_events.1 hv).1.2.1

/-- **Between an event and the next one the earlier of them is the previous one.** -/
theorem previous_of_next (hwhole : u.IsWhole) (hadmits : s.admits u = true)
    (h : s.next u = .ok v) (hur : u ≤ r) (hrv : r < v) : s.previous r = .ok u := by
  obtain ⟨⟨-, -, hdays⟩, -⟩ := mem_events.1 (search_eq_ok_iff.1 h).1
  have hnear : Direction.backward.daysAhead r.date u.date ≤ 366 :=
    le_trans (Direction.daysAhead_le_of_precedes .forward u (le_of_lt hrv)) hdays
  refine search_eq_ok_iff.2 ⟨mem_events.2 ⟨⟨hwhole, hur, hnear⟩, hadmits⟩, ?_⟩
  intro w hw
  obtain ⟨⟨hwhole', hwr, -⟩, hadmits'⟩ := mem_events.1 hw
  have hwv : w < v := lt_of_le_of_lt hwr hrv
  -- an event past `u` and before `v` would have been the next one
  refine le_of_not_gt fun huw => ?_
  exact absurd (eq_of_between h hwhole' hadmits' huw (le_of_lt hwv)) (ne_of_lt hwv)

/-! ### Turning round inside a gap -/

/-- Before the next event only events up to the reference are previous ones. -/
theorem previous_le_of_next (h : s.next t = .ok u) (hru : r < u) (hv : s.previous r = .ok v) :
    v ≤ t := by
  obtain ⟨hwhole, hadmits⟩ := isWhole_of_search hv
  have hvu : v < u := lt_of_le_of_lt (reaches_of_search hv) hru
  refine le_of_not_gt fun htv => ?_
  exact absurd (eq_of_between h hwhole hadmits htv (le_of_lt hvu)) (ne_of_lt hvu)

/-- From the previous event on only events after the reference are next ones. -/
theorem lt_next_of_previous (h : s.previous t = .ok u) (hur : u ≤ r) (hv : s.next r = .ok v) :
    t < v := by
  obtain ⟨hwhole, hadmits⟩ := isWhole_of_search hv
  have huv : u < v := lt_of_le_of_lt hur (reaches_of_search hv)
  refine lt_of_not_ge fun hvt => ?_
  exact absurd (eq_of_between h hwhole hadmits hvt (le_of_lt huv)) (ne_of_gt huv)

/-- **The two queries agree at every reference in between.**  From a reference up to the next event
every instant has the same next event and no previous one past the reference; from the previous
event up to a reference every instant has the same previous event and no next one up to the
reference. -/
theorem coherent (s : Schedule) (t : Instant) :
    (∀ n, s.next t = .ok n →
      s.previous n = .ok n ∧
        (∀ r, t ≤ r → r < n → s.next r = .ok n) ∧
          ∀ r, t < r → r < n →
            (∃ e, s.previous r = .error e) ∨ ∃ v, s.previous r = .ok v ∧ v ≤ t) ∧
      ∀ p, s.previous t = .ok p →
        (∀ r, p ≤ r → r ≤ t → s.previous r = .ok p) ∧
          ∀ r, p ≤ r → r < t →
            (∃ e, s.next r = .error e) ∨ ∃ v, s.next r = .ok v ∧ t < v := by
  refine ⟨fun n hn => ⟨?_, fun r htr hrn => ?_, fun r _ hrn => ?_⟩,
    fun p hp => ⟨fun r hpr hrt => ?_, fun r hpr _ => ?_⟩⟩
  · obtain ⟨hwhole, hadmits⟩ := isWhole_of_search hn
    exact previous_self hwhole hadmits
  · exact search_of_between hn htr hrn
  · cases hv : s.previous r with
    | error e => exact Or.inl ⟨e, rfl⟩
    | ok v => exact Or.inr ⟨v, rfl, previous_le_of_next hn hrn hv⟩
  · exact search_of_between hp hrt hpr
  · cases hv : s.next r with
    | error e => exact Or.inl ⟨e, rfl⟩
    | ok v => exact Or.inr ⟨v, rfl, lt_next_of_previous hp hpr hv⟩

/-- From half a second past the last second of a day, which belongs to the schedule, to noon of a
leap day, with references at fractions of a second on both days. -/
theorem coherent_over_midnight :
    let s : Schedule := ⟨"h(12), {h(23)m(59)s(59)}",
      [{ hours.included := [Range.single 12]
         minutes.included := [Range.single 0]
         seconds.included := [Range.single 0] },
       { hours.included := [Range.single 23]
         minutes.included := [Range.single 59]
         seconds.included := [Range.single 59] }]⟩
    let dayBefore : Date := ⟨2024, 2, 28, by decide⟩
    let day : Date := ⟨2024, 2, 29, by decide⟩
    let p := Instant.atSecond dayBefore Clock.last
    let r : Instant := ⟨dayBefore, Clock.last, 250000000⟩
    let t : Instant := ⟨dayBefore, Clock.last, 500000000⟩
    let r' : Instant := ⟨day, Clock.first, 750000000⟩
    let n := Instant.atSecond day ⟨12, 0, 0⟩
    ((s.next t = .ok n ∧ t ≤ r' ∧ t < r' ∧ r' < n) ∧
        s.previous t = .ok p ∧ p ≤ r ∧ r ≤ t ∧ r < t) ∧
      (s.previous n = .ok n ∧ s.next r' = .ok n ∧
        ((∃ e, s.previous r' = .error e) ∨ ∃ v, s.previous r' = .ok v ∧ v ≤ t)) ∧
      s.previous r = .ok p ∧ ((∃ e, s.next r = .error e) ∨ ∃ v, s.next r = .ok v ∧ t < v) := by
  intro s dayBefore day p r t r' n
  have hnext : s.next t = .ok n := by decide +kernel
  have hprevious : s.previous t = .ok p := by decide +kernel
  have htr' : t < r' := by decide
  have hr'n : r' < n := by decide
  have hpr : p ≤ r := by decide
  have hrt : r < t := by decide
  obtain ⟨hforward, hbackward⟩ := coherent s t
  obtain ⟨hself, hsame, hturned⟩ := hforward n hnext
  obtain ⟨hsame', hturned'⟩ := hbackward p hprevious
  exact ⟨⟨⟨hnext, le_of_lt htr', htr', hr'n⟩, hprevious, hpr, le_of_lt hrt, hrt⟩,
    ⟨hself, hsame r' (le_of_lt htr') hr'n, hturned r' htr' hr'n⟩,
    hsame' r hpr (le_of_lt hrt), hturned' r hpr hrt⟩

end Schedule

end Timetable

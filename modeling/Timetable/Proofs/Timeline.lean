/-
**The line of instants.**

A time of day is determined by the seconds before it and an instant by its position on the line of
nanoseconds, so both are linearly ordered.  A whole second is compared with any instant by counting
seconds, whatever the fraction of the other one, and the second after an instant is the first whole
one behind it or, with a fraction, a fraction past it.

Main definitions:

* the linear orders on `Clock` and `Instant`;
* `Instant.IsWhole` — no fraction of a second.

Main results:

* `Clock.secondOfDay_injective`, `Instant.nanoseconds_injective`;
* `Instant.lt_iff_of_isWhole`, `Instant.le_iff_of_isWhole` — **comparing with a whole second is
  counting seconds**;
* `Instant.seconds_next?`, `Instant.seconds_le_of_next?_eq_none` — one second later, and the last
  second of the calendar;
* `Instant.seconds_prev?`, `Instant.le_seconds_of_prev?_eq_none` — the same one second earlier.
-/

import Mathlib.Order.Lattice
import Timetable.Calendar.Instant
import Timetable.Proofs.DayNumber

set_option relaxedAutoImplicit false
set_option autoImplicit false

namespace Timetable

/-! ### Times of day -/

namespace Clock

theorem secondOfDay_injective : Function.Injective secondOfDay := by
  rintro ⟨h, m, s⟩ ⟨h', m', s'⟩ heq
  simp only [secondOfDay] at heq
  have hh : h = h' := by omega
  have hm : m = m' := by omega
  have hs : s = s' := by omega
  rw [hh, hm, hs]

/-- Times of day are ordered by the seconds before them. -/
instance : LinearOrder Clock := LinearOrder.lift' secondOfDay secondOfDay_injective

theorem le_def {c d : Clock} : c ≤ d ↔ c.secondOfDay ≤ d.secondOfDay := Iff.rfl

theorem first_le (c : Clock) : first ≤ c := Nat.zero_le _

theorem le_last (c : Clock) : c ≤ last := by
  have hlast : last.secondOfDay = 86399 := rfl
  have := c.secondOfDay_lt
  rw [le_def, hlast]
  omega

theorem secondOfDay_next? {c d : Clock} (h : c.next? = some d) :
    d.secondOfDay = c.secondOfDay + 1 := by
  unfold next? at h
  split at h
  · cases h; exact secondOfDay_ofSecond _ _
  · cases h

theorem secondOfDay_of_next?_eq_none {c : Clock} (h : c.next? = none) :
    c.secondOfDay = 86399 := by
  have := c.secondOfDay_lt
  unfold next? at h
  split at h
  · cases h
  · omega

theorem secondOfDay_prev? {c d : Clock} (h : c.prev? = some d) :
    d.secondOfDay + 1 = c.secondOfDay := by
  unfold prev? at h
  split at h
  · cases h
  · cases h
    rw [secondOfDay_ofSecond]
    omega

theorem secondOfDay_of_prev?_eq_none {c : Clock} (h : c.prev? = none) : c.secondOfDay = 0 := by
  unfold prev? at h
  split at h
  · assumption
  · cases h

end Clock

/-! ### Instants -/

namespace Instant

theorem nanoseconds_injective : Function.Injective nanoseconds := by
  rintro ⟨d, c, n⟩ ⟨d', c', n'⟩ heq
  have hc := c.secondOfDay_lt
  have hc' := c'.secondOfDay_lt
  simp only [nanoseconds, seconds] at heq
  have hn : n = n' := by omega
  have hday : d.dayNumber = d'.dayNumber := by omega
  have hsecond : c.secondOfDay = c'.secondOfDay := by omega
  rw [hn, Date.dayNumber_inj.1 hday, Clock.secondOfDay_injective hsecond]

/-- Instants are ordered by their position on the line of nanoseconds. -/
instance : LinearOrder Instant where
  le := (· ≤ ·)
  lt := (· < ·)
  le_refl t := le_refl t.nanoseconds
  le_trans t u v := le_trans (a := t.nanoseconds) (b := u.nanoseconds) (c := v.nanoseconds)
  lt_iff_le_not_ge t u := lt_iff_le_not_ge (a := t.nanoseconds) (b := u.nanoseconds)
  le_antisymm _ _ h h' := nanoseconds_injective (le_antisymm h h')
  le_total t u := le_total t.nanoseconds u.nanoseconds
  toDecidableLE := inferInstance
  toDecidableLT := inferInstance
  min := min
  max := max
  min_def _ _ := rfl
  max_def _ _ := rfl

/-- The instant has no fraction of a second. -/
def IsWhole (t : Instant) : Prop := t.nano.val = 0

theorem isWhole_atSecond (d : Date) (c : Clock) : (atSecond d c).IsWhole := rfl

theorem IsWhole.eq_atSecond {t : Instant} (h : t.IsWhole) : t = atSecond t.date t.clock := by
  obtain ⟨d, c, n⟩ := t
  have hn : n = ⟨0, by decide⟩ := Fin.ext h
  rw [hn]
  rfl

/-- **A whole second is behind an instant if it is behind its second.** -/
theorem lt_iff_of_isWhole {t u : Instant} (hu : u.IsWhole) : t < u ↔ t.seconds < u.seconds := by
  have ht := t.nano.isLt
  unfold IsWhole at hu
  rw [lt_def, nanoseconds, nanoseconds]
  omega

/-- **A whole second is not behind an instant if it is not behind its second.** -/
theorem le_iff_of_isWhole {t u : Instant} (hu : u.IsWhole) : u ≤ t ↔ u.seconds ≤ t.seconds := by
  rw [← not_lt, lt_iff_of_isWhole hu, not_lt]

/-- A later instant is not of an earlier day. -/
theorem date_le_of_le {t u : Instant} (h : t ≤ u) : t.date ≤ u.date := by
  have := t.clock.secondOfDay_lt
  have := u.clock.secondOfDay_lt
  have := u.nano.isLt
  rw [le_def] at h
  rw [Date.le_def]
  simp only [nanoseconds, seconds] at h
  omega

/-- An instant of an earlier day is an earlier one. -/
theorem le_of_date_lt {t u : Instant} (h : t.date < u.date) : t ≤ u :=
  le_of_not_ge fun hle => not_le.2 h (date_le_of_le hle)

/-- Whole seconds of one day compare as their times of day do. -/
theorem atSecond_le_atSecond {d : Date} {c c' : Clock} :
    atSecond d c ≤ atSecond d c' ↔ c ≤ c' := by
  rw [le_iff_of_isWhole (isWhole_atSecond d c), Clock.le_def]
  simp only [seconds, atSecond]
  omega

/-- One second later is the next second. -/
theorem seconds_next? {t u : Instant} (h : t.next? = some u) : u.seconds = t.seconds + 1 := by
  unfold next? at h
  split at h
  · rename_i c hc
    cases h
    have := Clock.secondOfDay_next? hc
    simp only [seconds]
    omega
  · rename_i hc
    obtain ⟨d, hd, rfl⟩ := Option.map_eq_some_iff.1 h
    have hfirst : Clock.first.secondOfDay = 0 := rfl
    have := Clock.secondOfDay_of_next?_eq_none hc
    have := Date.dayNumber_next? hd
    simp only [seconds]
    omega

/-- There is nothing one second later only in the last second of the calendar. -/
theorem seconds_le_of_next?_eq_none {t : Instant} (h : t.next? = none) (u : Instant) :
    u.seconds ≤ t.seconds := by
  unfold next? at h
  split at h
  · cases h
  · rename_i hc
    have hlast := Clock.secondOfDay_of_next?_eq_none hc
    have hday := Date.dayNumber_le_of_next?_eq_none (Option.map_eq_none_iff.1 h) u.date
    have := u.clock.secondOfDay_lt
    simp only [seconds]
    omega

/-- One second earlier is the second before. -/
theorem seconds_prev? {t u : Instant} (h : t.prev? = some u) : u.seconds = t.seconds - 1 := by
  unfold prev? at h
  split at h
  · rename_i c hc
    cases h
    have := Clock.secondOfDay_prev? hc
    simp only [seconds]
    omega
  · rename_i hc
    obtain ⟨d, hd, rfl⟩ := Option.map_eq_some_iff.1 h
    have hlast : Clock.last.secondOfDay = 86399 := rfl
    have := Clock.secondOfDay_of_prev?_eq_none hc
    have := Date.dayNumber_prev? hd
    simp only [seconds]
    omega

/-- There is nothing one second earlier only in the first second of the calendar. -/
theorem le_seconds_of_prev?_eq_none {t : Instant} (h : t.prev? = none) (u : Instant) :
    t.seconds ≤ u.seconds := by
  unfold prev? at h
  split at h
  · cases h
  · rename_i hc
    have hfirst := Clock.secondOfDay_of_prev?_eq_none hc
    have hday := Date.le_dayNumber_of_prev?_eq_none (Option.map_eq_none_iff.1 h) u.date
    simp only [seconds]
    omega

/-- One second later is on the same day, or is the first second of the next one. -/
theorem date_next? {t u : Instant} (h : t.next? = some u) :
    u.date = t.date ∨ t.date.next? = some u.date ∧ u.clock = Clock.first := by
  unfold next? at h
  split at h
  · cases h; exact Or.inl rfl
  · obtain ⟨d, hd, rfl⟩ := Option.map_eq_some_iff.1 h
    exact Or.inr ⟨hd, rfl⟩

end Instant

end Timetable

/-
**Times of day and instants.**

A `Clock` is a time of day to the second and an `Instant` is a date, a time of day and a fraction
of a second in nanoseconds, without any time zone.  Instants are ordered by their position on the
line of nanoseconds.

Main definitions:

* `Clock.secondOfDay`, `Clock.ofSecond` — a time of day as the number of seconds before it, and
  back;
* `Instant.atSecond`, `Instant.of?` — instants from their parts;
* `Instant.next?`, `Instant.prev?` — one second later and one second earlier, with the fraction
  kept;
* `Instant.seconds`, `Instant.nanoseconds` — the position on the line.
-/

import Timetable.Calendar.Date

set_option relaxedAutoImplicit false
set_option autoImplicit false

namespace Timetable

/-! ### Times of day -/

/-- A time of day. -/
structure Clock where
  hour : Fin 24
  minute : Fin 60
  second : Fin 60
  deriving DecidableEq

namespace Clock

/-- The first second of a day. -/
def first : Clock := ⟨0, 0, 0⟩

/-- The last second of a day. -/
def last : Clock := ⟨23, 59, 59⟩

/-- The seconds of the day before a time of day. -/
def secondOfDay (c : Clock) : Nat := c.hour * 3600 + c.minute * 60 + c.second

theorem secondOfDay_lt (c : Clock) : c.secondOfDay < 86400 := by
  unfold secondOfDay; omega

/-- The time of day with `n` seconds before it. -/
def ofSecond (n : Nat) (h : n < 86400) : Clock :=
  ⟨⟨n / 3600, by omega⟩, ⟨n / 60 % 60, by omega⟩, ⟨n % 60, by omega⟩⟩

@[simp] theorem secondOfDay_ofSecond (n : Nat) (h : n < 86400) :
    (ofSecond n h).secondOfDay = n := by
  simp only [ofSecond, secondOfDay]; omega

/-- The next second of the same day. -/
def next? (c : Clock) : Option Clock :=
  if h : c.secondOfDay + 1 < 86400 then some (ofSecond (c.secondOfDay + 1) h) else none

/-- The second before, of the same day. -/
def prev? (c : Clock) : Option Clock :=
  if c.secondOfDay = 0 then none
  else some (ofSecond (c.secondOfDay - 1) (by have := c.secondOfDay_lt; omega))

end Clock

/-! ### Instants -/

/-- A date, a time of day and the nanoseconds since that second began. -/
structure Instant where
  date : Date
  clock : Clock
  nano : Fin 1000000000 := ⟨0, by decide⟩
  deriving DecidableEq

namespace Instant

/-- The instant at which a second begins. -/
def atSecond (date : Date) (clock : Clock) : Instant := { date, clock }

/-- The instant with these numbers, if they name one. -/
def of? (year month day : Int) (hour minute second nano : Nat) : Option Instant :=
  (Date.of? year month day).bind fun date =>
    if h : hour < 24 ∧ minute < 60 ∧ second < 60 ∧ nano < 1000000000 then
      some ⟨date, ⟨⟨hour, h.1⟩, ⟨minute, h.2.1⟩, ⟨second, h.2.2.1⟩⟩, ⟨nano, h.2.2.2⟩⟩
    else none

/-- One second later, with the same fraction; there is none past the end of the calendar. -/
def next? (t : Instant) : Option Instant :=
  match t.clock.next? with
  | some c => some { t with clock := c }
  | none => t.date.next?.map fun d => ⟨d, Clock.first, t.nano⟩

/-- One second earlier, with the same fraction; there is none past the start of the calendar. -/
def prev? (t : Instant) : Option Instant :=
  match t.clock.prev? with
  | some c => some { t with clock := c }
  | none => t.date.prev?.map fun d => ⟨d, Clock.last, t.nano⟩

/-- The whole seconds since the first instant of the year 0. -/
def seconds (t : Instant) : Int := t.date.dayNumber * 86400 + t.clock.secondOfDay

/-- The nanoseconds since the first instant of the year 0. -/
def nanoseconds (t : Instant) : Int := t.seconds * 1000000000 + t.nano.val

instance : LE Instant := ⟨fun t u => t.nanoseconds ≤ u.nanoseconds⟩

instance : LT Instant := ⟨fun t u => t.nanoseconds < u.nanoseconds⟩

instance (t u : Instant) : Decidable (t ≤ u) :=
  inferInstanceAs (Decidable (t.nanoseconds ≤ u.nanoseconds))

instance (t u : Instant) : Decidable (t < u) :=
  inferInstanceAs (Decidable (t.nanoseconds < u.nanoseconds))

instance : Min Instant := ⟨fun t u => if t ≤ u then t else u⟩

instance : Max Instant := ⟨fun t u => if t ≤ u then u else t⟩

theorem le_def {t u : Instant} : t ≤ u ↔ t.nanoseconds ≤ u.nanoseconds := Iff.rfl

theorem lt_def {t u : Instant} : t < u ↔ t.nanoseconds < u.nanoseconds := Iff.rfl

/-- The instant a number of seconds after the start of 1970. -/
def ofUnixSeconds? (n : Nat) (nano : Fin 1000000000) : Option Instant :=
  (Date.of? 1970 1 1).bind fun epoch =>
    (epoch.later? (n / 86400)).map fun date =>
      ⟨date, Clock.ofSecond (n % 86400) (Nat.mod_lt _ (by decide)), nano⟩

end Instant

end Timetable

/-
**Well-formed groups.**

A range is well formed if a text can name it: both its ends are values of its kind and may be ends
of one range, a half-open range has two different ends, and the interval is not too long.  That
intervals are positive is part of what a range is.  All of this can be decided, so a group can be
tested for being well formed.

Main definitions:

* `Range.WellFormed` — for any sort of value;
* `Group.WellFormed` — **every range of the group is well formed**.
-/

import Timetable.Proofs.Grammar

set_option relaxedAutoImplicit false
set_option autoImplicit false

namespace Timetable

instance (v : DateValue) : Decidable v.IsNameable :=
  inferInstanceAs (Decidable (_ ∧ _ ∧ _))

instance (start stop : DateValue) : Decidable (start.MayBound stop) :=
  inferInstanceAs (Decidable (_ ∧ _))

/-- Both ends of the range are values of its kind and may be its ends, they differ if it is
half-open, and its interval fits into 32 bits. -/
structure Range.WellFormed {α : Type} (valid : α → Prop) (mayBound : α → α → Prop) (r : Range α) :
    Prop where
  start : valid r.start
  stop : valid r.stop
  bound : mayBound r.start r.stop
  differ : r.halfOpen = true → r.start ≠ r.stop
  interval : r.interval ≤ 4294967295

instance {α : Type} [DecidableEq α] (valid : α → Prop) [DecidablePred valid]
    (mayBound : α → α → Prop) [DecidableRel mayBound] (r : Range α) :
    Decidable (r.WellFormed valid mayBound) :=
  decidable_of_iff
    (valid r.start ∧ valid r.stop ∧ mayBound r.start r.stop ∧
      (r.halfOpen = true → r.start ≠ r.stop) ∧ r.interval ≤ 4294967295)
    ⟨fun h => ⟨h.1, h.2.1, h.2.2.1, h.2.2.2.1, h.2.2.2.2⟩,
      fun h => ⟨h.start, h.stop, h.bound, h.differ, h.interval⟩⟩

/-- A range of dates that a text can name. -/
abbrev Range.WellFormedDates : Range DateValue → Prop :=
  Range.WellFormed DateValue.IsNameable DateValue.MayBound

/-- A range of numbers on a dial that a text can name. -/
abbrev Range.WellFormedOnDial (d : Dial) : Range Int → Prop :=
  Range.WellFormed d.Takes fun _ _ => True

/-- Every range to include or to exclude has the property. -/
def Rules.Forall {α : Type} (p : Range α → Prop) (rs : Rules α) : Prop :=
  (∀ r ∈ rs.included, p r) ∧ ∀ r ∈ rs.excluded, p r

instance {α : Type} (p : Range α → Prop) [DecidablePred p] (rs : Rules α) :
    Decidable (rs.Forall p) :=
  inferInstanceAs (Decidable (_ ∧ _))

/-- **Every range of the group is well formed.** -/
structure Group.WellFormed (g : Group) : Prop where
  dates : g.dates.Forall Range.WellFormedDates
  dial : ∀ d : Dial, (g.rules d).Forall (Range.WellFormedOnDial d)

instance (g : Group) : Decidable g.WellFormed :=
  decidable_of_iff
    (g.dates.Forall Range.WellFormedDates ∧
      ∀ d ∈ [Dial.daysOfMonth, .daysOfWeek, .hours, .minutes, .seconds],
        (g.rules d).Forall (Range.WellFormedOnDial d))
    ⟨fun h => ⟨h.1, fun d => h.2 d (by cases d <;> decide)⟩,
      fun h => ⟨h.dates, fun d _ => h.dial d⟩⟩

end Timetable

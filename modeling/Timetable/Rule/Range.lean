/-
**Ranges of values.**

A range runs from a start to a stop, which may itself be left out, and keeps only every so many
values counted from the start.  A range whose stop comes before its start wraps around the end of
its domain: the hours from 22 to 3, the days from 24 December to 2 January.

Main definitions:

* `Range` — start, stop, whether the stop is left out, and the interval;
* `Range.of`, `Range.single` — a range from a plain interval, and the range of one value;
* `Range.isSplit` — whether the range wraps around.
-/

set_option relaxedAutoImplicit false
set_option autoImplicit false

namespace Timetable

/-- The values from `start` to `stop`, every `interval`-th of them.  A half-open range leaves its
stop out. -/
structure Range (α : Type) where
  start : α
  stop : α
  halfOpen : Bool
  interval : Nat
  interval_pos : 0 < interval := by decide
  deriving DecidableEq

namespace Range

variable {α : Type}

/-- The range with an interval of at least one. -/
def of (start stop : α) (halfOpen : Bool) (interval : Nat) : Range α :=
  ⟨start, stop, halfOpen, max interval 1, by omega⟩

/-- The range of one value. -/
def single (value : α) : Range α := of value value false 1

@[simp] theorem start_of (start stop : α) (halfOpen : Bool) (interval : Nat) :
    (of start stop halfOpen interval).start = start := rfl

@[simp] theorem stop_of (start stop : α) (halfOpen : Bool) (interval : Nat) :
    (of start stop halfOpen interval).stop = stop := rfl

@[simp] theorem halfOpen_of (start stop : α) (halfOpen : Bool) (interval : Nat) :
    (of start stop halfOpen interval).halfOpen = halfOpen := rfl

theorem interval_of (start stop : α) (halfOpen : Bool) {interval : Nat} (h : 0 < interval) :
    (of start stop halfOpen interval).interval = interval :=
  Nat.max_eq_left h

/-- The range wraps around the end of its domain. -/
def isSplit [LT α] [DecidableLT α] (r : Range α) : Bool := r.stop < r.start

/-- The range with both ends changed. -/
def map {β : Type} (f : α → β) (r : Range α) : Range β :=
  ⟨f r.start, f r.stop, r.halfOpen, r.interval, r.interval_pos⟩

end Range

end Timetable

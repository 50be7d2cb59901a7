/-
**The scan of one day is a search for the least or the greatest hands.**

Times of day are ordered by the seconds before them.  This is also the order in which two times are
compared by their hands, first by the hours, then by the minutes and then by the seconds, and the
triples of hands are the times of day.  So what the scan of a day yields is determined by the
triples that the rules admit, without a word about the order in which they are tried: forward it is
the least one that does not come before the start, backward the greatest one that does not come
after it.

Main definitions:

* `Clock.hands` — **the order of the clock is that of its hands**, compared one after the other;
* `Group.AdmitsHands` — the rules for hours, minutes and seconds admit the hands.

Main results:

* `Clock.hands_le_hands_iff` — the order of the hands, written out;
* `Group.timeInDay?_lexicographic` — **the scan of a day yields the least or the greatest hands**.
-/

import Mathlib.Data.Prod.Lex
import Mathlib.Order.Hom.Basic
import Timetable.Proofs.DayScan

set_option relaxedAutoImplicit false
set_option autoImplicit false

namespace Timetable

/-! ### Hands of a clock -/

/-- The positions of three hands, compared by the hour, then by the minute and then by the
second. -/
abbrev Hands : Type := Fin 24 ×ₗ Fin 60 ×ₗ Fin 60

namespace Clock

/-- The hands of a time of day in the order of comparing them. -/
def toHands (c : Clock) : Hands := toLex (c.hour, toLex (c.minute, c.second))

/-- The time of day that the hands show. -/
def ofHands (t : Hands) : Clock :=
  ⟨(ofLex t).1, (ofLex (ofLex t).2).1, (ofLex (ofLex t).2).2⟩

theorem toHands_le_toHands_iff {c d : Clock} :
    c.toHands ≤ d.toHands ↔
      c.hour < d.hour ∨ c.hour = d.hour ∧
        (c.minute < d.minute ∨ c.minute = d.minute ∧ c.second ≤ d.second) := by
  unfold toHands
  rw [Prod.Lex.toLex_le_toLex, Prod.Lex.toLex_le_toLex]

/-- **The order of the clock is that of its hands**, compared one after the other. -/
def hands : Clock ≃o Hands where
  toFun := toHands
  invFun := ofHands
  left_inv _ := rfl
  right_inv _ := rfl
  map_rel_iff' := by
    intro c d
    -- the hands are digits of the second of the day, so the first that differs decides
    have hm := c.minute.isLt
    have hs := c.second.isLt
    have hm' := d.minute.isLt
    have hs' := d.second.isLt
    show c.toHands ≤ d.toHands ↔ c ≤ d
    rw [toHands_le_toHands_iff, le_def]
    simp only [secondOfDay, Fin.lt_def, Fin.le_def, Fin.ext_iff]
    omega

end Clock

namespace Group

/-- The rules for hours, minutes and seconds admit the hands. -/
def AdmitsHands (g : Group) (t : Hands) : Prop :=
  g.admitsHour (ofLex t).1 = true ∧ g.admitsMinute (ofLex (ofLex t).2).1 = true ∧
    g.admitsSecond (ofLex (ofLex t).2).2 = true

theorem admitsHands_hands_iff {g : Group} {c : Clock} :
    g.AdmitsHands (Clock.hands c) ↔ g.admitsClock c = true :=
  admitsClock_iff.symm

/-- The scan of a day finds the nearest hands that the rules admit. -/
theorem finds_hands (g : Group) (dir : Direction) (start : Clock) :
    dir.Finds {t | dir.Precedes (Clock.hands start) t ∧ g.AdmitsHands t}
      ((g.timeInDay? dir start).map Clock.hands) := by
  have hprecedes (c d : Clock) :
      dir.Precedes (Clock.hands c) (Clock.hands d) ↔ dir.Precedes c d := by
    cases dir with
    | forward => exact Clock.hands.le_iff_le
    | backward => exact Clock.hands.le_iff_le
  refine ((g.finds_timeInDay? dir start).map fun c _ d _ => (hprecedes c d).2).congr fun t => ?_
  constructor
  · rintro ⟨c, ⟨hc, hadmits⟩, rfl⟩
    exact ⟨(hprecedes start c).2 hc, admitsHands_hands_iff.2 hadmits⟩
  · intro ⟨ht, hadmits⟩
    obtain ⟨c, rfl⟩ := Clock.hands.surjective t
    exact ⟨c, ⟨(hprecedes start c).1 ht, admitsHands_hands_iff.1 hadmits⟩, rfl⟩

section Answers

variable {g : Group} {dir : Direction} {start : Clock}

theorem timeInDay?_eq_some_iff {c : Clock} :
    g.timeInDay? dir start = some c ↔
      dir.IsNearest {t | dir.Precedes (Clock.hands start) t ∧ g.AdmitsHands t} (Clock.hands c) := by
  rw [← (g.finds_hands dir start).eq_some_iff]
  exact (Option.map_injective Clock.hands.injective).eq_iff.symm

theorem timeInDay?_eq_none_iff :
    g.timeInDay? dir start = none ↔
      ¬ ∃ t, dir.Precedes (Clock.hands start) t ∧ g.AdmitsHands t := by
  rw [← Option.map_eq_none_iff, (g.finds_hands dir start).eq_none_iff,
    ← Set.not_nonempty_iff_eq_empty]
  rfl

end Answers

/-- **The scan of a day yields the least hands that do not come before the start, or backward the
greatest that do not come after it**, of those that the rules admit, and nothing if there are no
such hands. -/
theorem timeInDay?_lexicographic (g : Group) (start : Clock) :
    (∀ c, g.timeInDay? .forward start = some c ↔
      IsLeast {t | Clock.hands start ≤ t ∧ g.AdmitsHands t} (Clock.hands c)) ∧
    (∀ c, g.timeInDay? .backward start = some c ↔
      IsGreatest {t | t ≤ Clock.hands start ∧ g.AdmitsHands t} (Clock.hands c)) ∧
    (g.timeInDay? .forward start = none ↔
      ¬ ∃ t, Clock.hands start ≤ t ∧ g.AdmitsHands t) ∧
    (g.timeInDay? .backward start = none ↔
      ¬ ∃ t, t ≤ Clock.hands start ∧ g.AdmitsHands t) :=
  ⟨fun _ => timeInDay?_eq_some_iff.trans Direction.isNearest_forward,
    fun _ => timeInDay?_eq_some_iff.trans Direction.isNearest_backward,
    timeInDay?_eq_none_iff, timeInDay?_eq_none_iff⟩

/-- The minute of the start counts in its own hour only: from half past ten it takes until five past
eleven, and back from eleven until five past ten. -/
example :
    let g : Group :=
      { hours := ⟨[Range.of 10 11 false 1], []⟩
        minutes := ⟨[Range.single 5], []⟩
        seconds := ⟨[Range.single 0], []⟩ }
    g.timeInDay? .forward ⟨10, 30, 0⟩ = some ⟨11, 5, 0⟩ ∧
      g.timeInDay? .backward ⟨11, 0, 0⟩ = some ⟨10, 5, 0⟩ := by
  decide +kernel

end Group

end Timetable

/-
**A range on a dial is a walk around it.**

The test whether a range hits a number has a branch for a range that does not wrap around, one for
the numbers before the wrap and one for those behind it, and a half-open range is turned away early.
Together they say one thing: starting from the start of the range and going up the dial, from its
last number on to its first, the range hits every so many numbers until its stop is reached.

Main definitions:

* `Wheel`, `Wheel.next` — consecutive numbers in a round, and one step upwards;
* `Wheel.stepsTo` — the steps from one number up to another.

Main results:

* `Range.hits_of_le`, `Range.hits_of_lt` — the branches of the test;
* `Wheel.iterate_next` — so many steps upwards are an addition on the wheel;
* `Wheel.iterate_stepsTo`, `Wheel.eq_stepsTo` — the steps up to a number lead there, and no other
  number of steps short of a whole round does;
* `Range.hits_iff_stepsTo` — the test counts steps;
* `Range.hits_iff_walk` — **a range hits the numbers its walk around the wheel steps on**.
-/

import Mathlib.Data.Int.ModEq
import Mathlib.Logic.Function.Iterate
import Timetable.Rule.Membership

set_option relaxedAutoImplicit false
set_option autoImplicit false

namespace Timetable

/-! ### The branches of the test -/

namespace Range

variable {r : Range Int} {length v : Int}

/-- A range that does not wrap around. -/
theorem hits_of_le (h : r.start ≤ r.stop) :
    r.hits length v = true ↔
      (r.start ≤ v ∧ v ≤ r.stop) ∧ (r.halfOpen = true → v ≠ r.stop) ∧
        (r.interval : Int) ∣ v - r.start := by
  rw [Int.dvd_iff_emod_eq_zero]
  unfold hits
  by_cases hstop : r.halfOpen = true ∧ v = r.stop
  · simp [hstop.1, hstop.2]
  · by_cases hinside : r.start ≤ v ∧ v ≤ r.stop
    · simp [hstop, hinside]
      tauto
    · simp [hstop, hinside, not_lt.2 h]

/-- A range that wraps around: before the wrap the numbers are counted from the start, and behind it
they are counted on from the end of the dial. -/
theorem hits_of_lt (h : r.stop < r.start) :
    r.hits length v = true ↔
      (r.start ≤ v ∨ v ≤ r.stop) ∧ (r.halfOpen = true → v ≠ r.stop) ∧
        (r.interval : Int) ∣ if r.start ≤ v then v - r.start else v + length - r.start := by
  rw [Int.dvd_iff_emod_eq_zero]
  unfold hits
  by_cases hstop : r.halfOpen = true ∧ v = r.stop
  · simp [hstop.1, hstop.2]
  · by_cases hbefore : r.start ≤ v
    · have hbehind : ¬v ≤ r.stop := by omega
      simp [hstop, hbefore, hbehind, h]
      tauto
    · simp [hstop, hbefore, h]
      tauto

theorem hits_before_wrap (h : r.stop < r.start) (hv : r.start ≤ v) :
    r.hits length v = true ↔ (r.interval : Int) ∣ v - r.start := by
  rw [hits_of_lt h, if_pos hv]
  constructor
  · intro hhit
    exact hhit.2.2
  · intro hdvd
    exact ⟨Or.inl hv, fun _ => by omega, hdvd⟩

theorem hits_behind_wrap (h : r.stop < r.start) (hv : v ≤ r.stop) :
    r.hits length v = true ↔
      (r.halfOpen = true → v ≠ r.stop) ∧ (r.interval : Int) ∣ v + length - r.start := by
  rw [hits_of_lt h, if_neg (by omega)]
  exact and_iff_right (Or.inr hv)

end Range

/-! ### Wheels -/

/-- Consecutive numbers in a round: the first one comes behind the last. -/
structure Wheel where
  low : Int
  size : Nat
  size_pos : 0 < size := by decide

namespace Wheel

/-- The numbers on the wheel. -/
instance : Membership Int Wheel := ⟨fun w v => w.low ≤ v ∧ v < w.low + w.size⟩

variable {w : Wheel} {u v x : Int} {n : Nat}

theorem mem_def : v ∈ w ↔ w.low ≤ v ∧ v < w.low + w.size := Iff.rfl

instance (v : Int) (w : Wheel) : Decidable (v ∈ w) := inferInstanceAs (Decidable (_ ∧ _))

/-- One step upwards, from the last number on to the first. -/
def next (w : Wheel) (v : Int) : Int := if v = w.low + w.size - 1 then w.low else v + 1

/-- The steps upwards from one number to another, fewer than a whole round. -/
def stepsTo (w : Wheel) (v u : Int) : Nat := ((u - v) % w.size).toNat

/-- A step is an addition on the wheel. -/
theorem next_eq (h : v ∈ w) : w.next v = w.low + (v - w.low + 1) % w.size := by
  obtain ⟨hlow, hhigh⟩ := mem_def.1 h
  unfold next
  split
  · rename_i hlast
    have hround : v - w.low + 1 = w.size := by omega
    rw [hround, Int.emod_self, add_zero]
  · rw [Int.emod_eq_of_lt (by omega) (by omega)]
    omega

/-- **So many steps upwards are an addition on the wheel.** -/
theorem iterate_next (h : v ∈ w) (n : Nat) :
    w.next^[n] v = w.low + (v - w.low + n) % w.size := by
  have hsize : (0 : Int) < w.size := by exact_mod_cast w.size_pos
  induction n with
  | zero =>
      obtain ⟨hlow, hhigh⟩ := mem_def.1 h
      rw [Function.iterate_zero_apply, Nat.cast_zero, add_zero,
        Int.emod_eq_of_lt (by omega) (by omega)]
      omega
  | succ n ih =>
      have hmem : w.next^[n] v ∈ w := by
        have hnonneg := Int.emod_nonneg (v - w.low + n) hsize.ne'
        have hlt := Int.emod_lt_of_pos (v - w.low + n) hsize
        rw [ih, mem_def]
        omega
      rw [Function.iterate_succ_apply', next_eq hmem, ih, add_sub_cancel_left,
        Int.emod_add_emod, Nat.cast_succ, add_assoc]

/-- So many steps lead to a number if whole rounds are left over. -/
theorem iterate_next_eq_iff (hv : v ∈ w) (hu : u ∈ w) :
    w.next^[n] v = u ↔ (u - v) % w.size = n % w.size := by
  obtain ⟨hlow, hhigh⟩ := mem_def.1 hu
  have hself : (u - w.low) % w.size = u - w.low := Int.emod_eq_of_lt (by omega) (by omega)
  have hshift : w.low + (v - w.low + n) % w.size = u ↔
      (v - w.low + n) % w.size = (u - w.low) % w.size := by
    rw [hself]
    omega
  have hdiff : u - w.low - (v - w.low + n) = u - v - n := by omega
  rw [iterate_next hv, hshift, eq_comm, Int.emod_eq_emod_iff_emod_sub_eq_zero, hdiff,
    ← Int.emod_eq_emod_iff_emod_sub_eq_zero]

theorem natCast_stepsTo (w : Wheel) (v u : Int) : (w.stepsTo v u : Int) = (u - v) % w.size := by
  have hsize : (w.size : Int) ≠ 0 := by exact_mod_cast w.size_pos.ne'
  exact Int.toNat_of_nonneg (Int.emod_nonneg _ hsize)

theorem stepsTo_lt (w : Wheel) (v u : Int) : w.stepsTo v u < w.size := by
  have hsize : (0 : Int) < w.size := by exact_mod_cast w.size_pos
  have hlt := Int.emod_lt_of_pos (u - v) hsize
  rw [← natCast_stepsTo] at hlt
  exact_mod_cast hlt

/-- The steps up to a number lead there. -/
theorem iterate_stepsTo (hv : v ∈ w) (hu : u ∈ w) : w.next^[w.stepsTo v u] v = u := by
  rw [iterate_next_eq_iff hv hu, natCast_stepsTo, Int.emod_emod]

/-- No other number of steps short of a whole round leads there. -/
theorem eq_stepsTo (hv : v ∈ w) (hu : u ∈ w) (hn : n < w.size) (h : w.next^[n] v = u) :
    n = w.stepsTo v u := by
  rw [iterate_next_eq_iff hv hu, ← natCast_stepsTo, ← Int.natCast_emod, Nat.mod_eq_of_lt hn] at h
  exact_mod_cast h.symm

/-- Up to a number that is not smaller the steps do not wrap around, up to a smaller one they do. -/
theorem stepsTo_eq (hv : v ∈ w) (hu : u ∈ w) :
    (w.stepsTo v u : Int) = if v ≤ u then u - v else u + w.size - v := by
  obtain ⟨hlow, hhigh⟩ := mem_def.1 hv
  obtain ⟨hlow', hhigh'⟩ := mem_def.1 hu
  rw [natCast_stepsTo]
  split
  · rw [Int.emod_eq_of_lt (by omega) (by omega)]
  · rw [← Int.add_emod_right, Int.emod_eq_of_lt (by omega) (by omega)]
    omega

theorem stepsTo_inj (hv : v ∈ w) (hu : u ∈ w) (hx : x ∈ w) :
    w.stepsTo v u = w.stepsTo v x ↔ u = x := by
  constructor
  · intro h
    rw [← iterate_stepsTo hv hu, h, iterate_stepsTo hv hx]
  · rintro rfl
    rfl

/-- On the way up to a number that is not smaller one meets the numbers in between. -/
theorem stepsTo_le_iff_of_le (hv : v ∈ w) (hu : u ∈ w) (hx : x ∈ w) (h : v ≤ u) :
    w.stepsTo v x ≤ w.stepsTo v u ↔ v ≤ x ∧ x ≤ u := by
  have hlow := (mem_def.1 hx).1
  have hhigh := (mem_def.1 hu).2
  rw [← Int.ofNat_le, stepsTo_eq hv hx, stepsTo_eq hv hu, if_pos h]
  split <;> omega

/-- On the way up to a smaller number one meets all numbers but those in between. -/
theorem stepsTo_le_iff_of_lt (hv : v ∈ w) (hu : u ∈ w) (hx : x ∈ w) (h : u < v) :
    w.stepsTo v x ≤ w.stepsTo v u ↔ v ≤ x ∨ x ≤ u := by
  have hlow := (mem_def.1 hu).1
  have hhigh := (mem_def.1 hx).2
  rw [← Int.ofNat_le, stepsTo_eq hv hx, stepsTo_eq hv hu, if_neg (not_le.2 h)]
  split <;> omega

end Wheel

/-! ### Ranges on a wheel -/

namespace Range

variable {w : Wheel} {r : Range Int} {v : Int}

section Walk

variable (hstart : r.start ∈ w) (hstop : r.stop ∈ w) (hv : v ∈ w)
include hstart hstop hv

/-- **The test counts steps**: the number has to come no later than the stop on the way up from the
start, and the steps up to it have to be a multiple of the interval. -/
theorem hits_iff_stepsTo :
    r.hits w.size v = true ↔
      w.stepsTo r.start v ≤ w.stepsTo r.start r.stop ∧
        (r.halfOpen = true → w.stepsTo r.start v ≠ w.stepsTo r.start r.stop) ∧
          r.interval ∣ w.stepsTo r.start v := by
  have hne : w.stepsTo r.start v ≠ w.stepsTo r.start r.stop ↔ v ≠ r.stop :=
    not_congr (Wheel.stepsTo_inj hstart hv hstop)
  have hsteps := Wheel.stepsTo_eq hstart hv
  rw [← Int.natCast_dvd_natCast, hne, hsteps]
  by_cases hle : r.start ≤ r.stop
  · rw [hits_of_le hle, Wheel.stepsTo_le_iff_of_le hstart hstop hv hle]
    refine and_congr_right fun hinside => ?_
    rw [if_pos hinside.1]
  · rw [not_le] at hle
    rw [hits_of_lt hle, Wheel.stepsTo_le_iff_of_lt hstart hstop hv hle]

/-- **A range hits the numbers that its walk around the wheel steps on.**  The walk begins at the
start, takes as many steps at a time as the interval says, and goes no farther than the stop, which
it does not reach if the range is half-open. -/
theorem hits_iff_walk :
    r.hits w.size v = true ↔
      ∃ k : Nat, w.next^[k * r.interval] r.start = v ∧
        if r.halfOpen then k * r.interval < w.stepsTo r.start r.stop
        else k * r.interval ≤ w.stepsTo r.start r.stop := by
  have hround := w.stepsTo_lt r.start r.stop
  have hlt (n : Nat) : (if r.halfOpen then n < w.stepsTo r.start r.stop
      else n ≤ w.stepsTo r.start r.stop) ↔
        n ≤ w.stepsTo r.start r.stop ∧ (r.halfOpen = true → n ≠ w.stepsTo r.start r.stop) := by
    cases r.halfOpen with
    | false => simp
    | true => simp [lt_iff_le_and_ne]
  rw [hits_iff_stepsTo hstart hstop hv]
  constructor
  · rintro ⟨hle, hne, k, hk⟩
    rw [mul_comm] at hk
    refine ⟨k, ?_, (hlt _).2 ?_⟩
    · rw [← hk]
      exact Wheel.iterate_stepsTo hstart hv
    · rw [← hk]
      exact ⟨hle, hne⟩
  · rintro ⟨k, hk, hbound⟩
    obtain ⟨hle, hne⟩ := (hlt _).1 hbound
    -- the walk ends within one round, so its steps are the steps up to the number
    have hsteps := Wheel.eq_stepsTo hstart hv (lt_of_le_of_lt hle hround) hk
    rw [← hsteps]
    exact ⟨hle, hne, Dvd.intro_left k rfl⟩

end Walk

/-- Every other day from Friday up to the Monday after, which is left out: Friday and Sunday. -/
theorem hits_iff_walk_over_weekend :
    let w : Wheel := ⟨1, 7, by decide⟩
    let r : Range Int := Range.of 6 2 true 2
    let v : Int := 1
    (r.start ∈ w ∧ r.stop ∈ w ∧ v ∈ w) ∧ r.hits w.size v = true ∧
      ∃ k : Nat, w.next^[k * r.interval] r.start = v ∧
        if r.halfOpen then k * r.interval < w.stepsTo r.start r.stop
        else k * r.interval ≤ w.stepsTo r.start r.stop := by
  intro w r v
  have hstart : r.start ∈ w := by decide
  have hstop : r.stop ∈ w := by decide
  have hv : v ∈ w := by decide
  have hhit : r.hits w.size v = true := by decide
  exact ⟨⟨hstart, hstop, hv⟩, hhit, (hits_iff_walk hstart hstop hv).1 hhit⟩

end Range

end Timetable

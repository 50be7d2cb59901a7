/-
**An instant written out is read back.**

Every part of an instant is written with a fixed number of digits and is read by that number, so no
part runs into the next one.  A year before the year 0 has a sign and two more digits, and no other
year starts with a sign.  A fraction of a second is written without the zeros at its end and is read
with as many zeros as are missing.

Main results:

* `takeDigits?_padded` — a number written with a width is read back by that width;
* `readYear?_writtenYear`, `Date.read?_written` — so are years and dates;
* `readFraction?_stripped` — the zeros left out of a fraction are put back;
* `Instant.read?_text` — **the text of an instant names the instant**.
-/

import Mathlib.Algebra.Ring.Nat
import Mathlib.Data.List.TakeWhile
import Timetable.Calendar.InstantText

set_option relaxedAutoImplicit false
set_option autoImplicit false

namespace Timetable

/-! ### Numbers of a fixed width -/

section Padded

variable (width n : Nat)

theorem length_padded (hwidth : 0 < width) (h : n < 10 ^ width) :
    (padded width n).length = width := by
  rw [padded, List.length_leftpad]
  exact Nat.max_eq_left ((Nat.length_toDigits_le_iff (by decide) hwidth).2 h)

theorem isDigit_of_mem_padded {width n : Nat} {c : Char} (h : c ∈ padded width n) :
    c.isDigit = true := by
  rw [padded, List.leftpad, List.mem_append] at h
  rcases h with h | h
  · rw [List.eq_of_mem_replicate h]
    rfl
  · exact Nat.isDigit_of_mem_toDigits (by decide) (by decide) h

/-- Zeros in front do not change a number. -/
theorem ofDigitChars_padded : Nat.ofDigitChars 10 (padded width n) 0 = n := by
  rw [padded, List.leftpad, Nat.ofDigitChars_append, Nat.ofDigitChars_replicate_zero, Nat.mul_zero]
  exact Nat.ofDigitChars_ten_toDigits

/-- **A number written with a width is read back by that width.** -/
theorem takeDigits?_padded (hwidth : 0 < width) (h : n < 10 ^ width) (rest : List Char) :
    takeDigits? width (padded width n ++ rest) = some (n, rest) := by
  have hlength := length_padded width n hwidth h
  have hdigits : (padded width n).all Char.isDigit = true :=
    List.all_eq_true.2 fun c hc => isDigit_of_mem_padded hc
  have htake : (padded width n ++ rest).take width = padded width n :=
    List.take_left' hlength
  have hdrop : (padded width n ++ rest).drop width = rest := List.drop_left' hlength
  simp only [takeDigits?, htake, hdrop, ofDigitChars_padded]
  exact if_pos ⟨hlength, hdigits⟩

end Padded

theorem takeChar?_self (c : Char) (rest : List Char) : takeChar? c (c :: rest) = some rest :=
  if_pos rfl

/-! ### Dates -/

/-- **A year is read back**: it starts with a sign only if it comes before the year 0. -/
theorem readYear?_writtenYear {year : Int} (h : -9999 ≤ year) (h' : year ≤ 9999)
    (rest : List Char) : readYear? (writtenYear year ++ rest) = some (year, rest) := by
  unfold writtenYear
  by_cases hneg : year < 0
  · have hread := takeDigits?_padded 6 year.natAbs (by decide) (by omega) rest
    have hne : year.natAbs ≠ 0 := by omega
    have hvalue : -(year.natAbs : Int) = year := by omega
    rw [if_pos hneg, List.cons_append, readYear?, hread, Option.bind_eq_bind, Option.bind_some]
    simp only [if_neg hne, hvalue]
  · have hread := takeDigits?_padded 4 year.natAbs (by decide) (by omega) rest
    have hvalue : (year.natAbs : Int) = year := by omega
    have hlength := length_padded 4 year.natAbs (by decide) (by omega)
    obtain ⟨c, cs, hcs⟩ := List.exists_cons_of_length_pos (l := padded 4 year.natAbs) (by omega)
    have hc : c.isDigit = true := isDigit_of_mem_padded (hcs ▸ List.mem_cons_self ..)
    rw [if_neg hneg]
    rw [hcs] at hread ⊢
    unfold readYear?
    -- a digit is no sign
    split
    · rename_i heq
      cases heq
      exact absurd hc (by decide)
    · rename_i heq
      cases heq
      exact absurd hc (by decide)
    · rw [hread]
      simp [hvalue]

/-- **A date is read back.** -/
theorem Date.read?_written (d : Date) (rest : List Char) :
    Date.read? (d.written ++ rest) = some (d, rest) := by
  obtain ⟨hyear, hmonth, hday⟩ := d.isDate
  have hlong := monthLength_le d.year d.month
  have hread := readYear?_writtenYear hyear.1 hyear.2
  have hmonth' := takeDigits?_padded 2 d.month.natAbs (by decide) (by omega)
  have hday' := takeDigits?_padded 2 d.day.natAbs (by decide) (by omega)
  have hof : Date.of? d.year d.month.natAbs d.day.natAbs = some d :=
    Date.of?_eq_some_iff.2 ⟨rfl, by omega, by omega⟩
  simp only [Date.read?, Date.written, List.append_assoc, List.cons_append, hread, hmonth', hday',
    takeChar?_self, hof, bind, Option.bind]

/-! ### Fractions of a second -/

/-- A list is what is left without the zeros at its end, and the zeros. -/
theorem exists_eq_append_replicate (cs : List Char) :
    ∃ k, cs = (cs.reverse.dropWhile (· = '0')).reverse ++ List.replicate k '0' := by
  have hzeros : ∀ c ∈ cs.reverse.takeWhile (· = '0'), c = '0' :=
    fun c hc => of_decide_eq_true (List.mem_takeWhile_imp (p := fun c => decide (c = '0')) hc)
  refine ⟨(cs.reverse.takeWhile (· = '0')).length, ?_⟩
  rw [← List.reverse_replicate, ← List.eq_replicate_iff.2 ⟨rfl, hzeros⟩, ← List.reverse_append,
    List.takeWhile_append_dropWhile, List.reverse_reverse]

/-- **The zeros left out of a fraction are put back.** -/
theorem readFraction?_stripped {nano : Nat} (h : nano < 1000000000) (hne : nano ≠ 0) :
    readFraction? ((padded 9 nano).reverse.dropWhile (· = '0')).reverse = some nano := by
  have hlength := length_padded 9 nano (by decide) h
  have hvalue := ofDigitChars_padded 9 nano
  obtain ⟨k, hk⟩ := exists_eq_append_replicate (padded 9 nano)
  generalize hds : ((padded 9 nano).reverse.dropWhile (· = '0')).reverse = ds at hk ⊢
  have hsum : ds.length + k = 9 := by
    rw [hk, List.length_append, List.length_replicate] at hlength
    exact hlength
  have hdigits : ds.all Char.isDigit = true :=
    List.all_eq_true.2 fun c hc =>
      isDigit_of_mem_padded (hk ▸ List.mem_append_left (List.replicate k '0') hc)
  have hnonempty : ds ≠ [] := by
    -- otherwise all digits are zeros
    rintro rfl
    rw [hk, List.nil_append, Nat.ofDigitChars_replicate_zero, Nat.mul_zero] at hvalue
    exact hne hvalue.symm
  have hpad : ds.rightpad 9 '0' = padded 9 nano := by
    rw [hk, List.rightpad, show 9 - ds.length = k by omega]
  unfold readFraction?
  rw [if_neg (by simp [hnonempty, hdigits]; omega), hpad, hvalue]

/-! ### Instants -/

theorem readSecond?_written {second nano : Nat} (hsecond : second < 60)
    (hnano : nano < 1000000000) :
    readSecond? (':' :: (padded 2 second ++ writtenFraction nano)) = some (second, nano) := by
  have hread := takeDigits?_padded 2 second (by decide) (by omega)
    (writtenFraction nano)
  have hne : second ≠ 60 := by omega
  simp only [readSecond?, hread, bind, Option.bind, if_neg hne]
  unfold writtenFraction
  by_cases hzero : nano = 0
  · rw [if_pos hzero, hzero]
  · rw [if_neg hzero]
    exact congrArg (Option.map fun nano => (second, nano)) (readFraction?_stripped hnano hzero)

/-- **An instant written out is read back.** -/
theorem Instant.read?_written (t : Instant) : Instant.read? t.written = some t := by
  obtain ⟨d, ⟨hour, minute, second⟩, nano⟩ := t
  have hhour := takeDigits?_padded 2 hour.val (by decide) (by omega)
  have hminute := takeDigits?_padded 2 minute.val (by decide) (by omega)
  have hsecond := readSecond?_written second.isLt nano.isLt
  have hof : Instant.of? d.year d.month d.day hour.val minute.val second.val nano.val =
      some ⟨d, ⟨hour, minute, second⟩, nano⟩ := by
    rw [of?, Date.of?_self, Option.bind_some]
    exact dif_pos ⟨hour.isLt, minute.isLt, second.isLt, nano.isLt⟩
  simp only [read?, written, Clock.written, List.append_assoc, List.cons_append,
    Date.read?_written, hhour, hminute, hsecond, takeChar?_self, hof, bind, Option.bind,
    true_or, if_true]

/-- **The text of an instant names the instant.** -/
theorem Instant.read?_text (t : Instant) : Instant.read? t.text.toList = some t := by
  rw [Instant.text, String.toList_ofList]
  exact t.read?_written

end Timetable

/-
**Reading arguments.**

An argument is a wildcard, a value or a range of values, with an exclusion mark in front of it or
without, and with an interval behind it or without.  What is wrong with a range is placed at its
first value, and a wildcard that is excluded without an interval at the exclusion mark.

Main definitions:

* `readRangeMark`, `readOptionalInterval` — the optional parts of an argument;
* `dateEndsFault?` — what is wrong with two dates as the ends of a range;
* `readExtent`, `readWildcardOrExtent`, `readArgument` — the argument, for any way to read values;
* `readDateArgument`, `readDialArgument` — **reading arguments of dates and of numbers on a dial**.

Main results:

* `consumes_readDateArgument`, `consumes_readDialArgument` — both take something.
-/

import Timetable.Program
import Timetable.Program.Reader.Value

set_option relaxedAutoImplicit false
set_option autoImplicit false

namespace Timetable

variable (unread : Option (List Char))

/-- Takes the mark between the ends of a range, if there is one, and tells whether the range is
half-open. -/
def readRangeMark (ls : List Lexeme) : Except Fault (Option Bool × List Lexeme) :=
  match ls with
  | .symbol .rangeInclusive :: _ => return (some false, ← afterFirst unread ls)
  | .symbol .rangeHalfOpen :: _ => return (some true, ← afterFirst unread ls)
  | _ => return (none, ls)

/-- What is wrong with two dates as the ends of a range. -/
def dateEndsFault? (start stop : DateValue) : Option Cause :=
  if start.isFull ≠ stop.isFull then some .mixedDates
  else if start.isFull ∧ stop < start then some .reversedDates
  else none

/-- Reads a value or a range of values. -/
def readExtent {α : Type} [DecidableEq α] (readValue : Reader α)
    (endsFault? : α → α → Option Cause) (ls : List Lexeme) :
    Except Fault (Extent α × List Lexeme) := do
  let (start, ls₁) ← readValue ls
  let (mark, ls₂) ← readRangeMark unread ls₁
  match mark with
  | none => return (.value start, ls₂)
  | some halfOpen =>
    let (stop, rest) ← readValue ls₂
    if halfOpen = true ∧ start = stop then faultAt .emptyRange ls
    else
      match endsFault? start stop with
      | some cause => faultAt cause ls
      | none => return (.range start stop halfOpen, rest)

/-- Reads a wildcard, a value or a range of values. -/
def readWildcardOrExtent {α : Type} [DecidableEq α] (readValue : Reader α)
    (endsFault? : α → α → Option Cause) (ls : List Lexeme) :
    Except Fault (Extent α × List Lexeme) := do
  let (wildcard, rest) ← readOptional unread .wildcard ls
  if wildcard then return (.wildcard, rest) else readExtent unread readValue endsFault? rest

/-- Reads an interval behind its mark, if the mark is there. -/
def readOptionalInterval (ls : List Lexeme) : Except Fault (Option Nat × List Lexeme) := do
  let (marked, ls₁) ← readOptional unread .interval ls
  if marked then do
    let (n, rest) ← readInterval unread ls₁
    return (some n, rest)
  else return (none, ls₁)

/-- Reads an argument. -/
def readArgument {α : Type} [DecidableEq α] (readValue : Reader α)
    (endsFault? : α → α → Option Cause) (ls : List Lexeme) :
    Except Fault (Argument α × List Lexeme) := do
  let (excluded, ls₁) ← readOptional unread .not ls
  let (extent, ls₂) ← readWildcardOrExtent unread readValue endsFault? ls₁
  let (interval, rest) ← readOptionalInterval unread ls₂
  if extent = .wildcard ∧ excluded = true ∧ interval = none then faultAt .excludedWildcard ls
  else return (⟨excluded, extent, interval⟩, rest)

/-- Reads an argument of dates. -/
def readDateArgument (ls : List Lexeme) : Except Fault (Argument DateValue × List Lexeme) :=
  readArgument unread (readDate unread) dateEndsFault? ls

/-- Reads an argument of numbers on a dial. -/
def readDialArgument (d : Dial) (ls : List Lexeme) : Except Fault (Argument Int × List Lexeme) :=
  readArgument unread (readDialValue unread d) (fun _ _ => none) ls

/-! ### What a reader has taken -/

theorem readRangeMark_length {ls rest : List Lexeme} {mark : Option Bool}
    (h : readRangeMark unread ls = .ok (mark, rest)) : rest.length ≤ ls.length := by
  unfold readRangeMark at h
  split at h
  · simp only [bind_eq_ok, pure_eq_ok, Prod.mk.injEq] at h
    obtain ⟨_, hn, -, rfl⟩ := h
    rw [afterFirst_eq_ok unread hn]; simp
  · simp only [bind_eq_ok, pure_eq_ok, Prod.mk.injEq] at h
    obtain ⟨_, hn, -, rfl⟩ := h
    rw [afterFirst_eq_ok unread hn]; simp
  · simp only [pure_eq_ok, Prod.mk.injEq] at h
    exact Nat.le_of_eq (congrArg List.length h.2.symm)

variable {α : Type} [DecidableEq α] {readValue : Reader α}
  {endsFault? : α → α → Option Cause}

theorem consumes_readExtent (hv : Consumes readValue) :
    Consumes (readExtent unread readValue endsFault?) := by
  intro ls e rest h
  unfold readExtent at h
  simp only [bind_eq_ok, Prod.exists] at h
  obtain ⟨start, ls₁, h₁, mark, ls₂, h₂, h⟩ := h
  have hlt := hv h₁
  have hle := readRangeMark_length unread h₂
  split at h
  · simp only [pure_eq_ok, Prod.mk.injEq] at h
    rw [← h.2]; omega
  · simp only [bind_eq_ok, Prod.exists] at h
    obtain ⟨stop, ls₃, h₃, h⟩ := h
    have := hv h₃
    split at h
    · simp at h
    · split at h
      · simp at h
      · simp only [pure_eq_ok, Prod.mk.injEq] at h
        rw [← h.2]; omega

theorem consumes_readWildcardOrExtent (hv : Consumes readValue) :
    Consumes (readWildcardOrExtent unread readValue endsFault?) := by
  intro ls e rest h
  unfold readWildcardOrExtent at h
  simp only [bind_eq_ok, Prod.exists] at h
  obtain ⟨wildcard, ls₁, h₁, h⟩ := h
  split at h
  · simp only [pure_eq_ok, Prod.mk.injEq] at h
    rw [readOptional_eq_ok unread h₁, ← h.2]
    simp_all
  · have := readOptional_length unread h₁
    have := consumes_readExtent unread hv h
    omega

theorem readOptionalInterval_length {ls rest : List Lexeme} {interval : Option Nat}
    (h : readOptionalInterval unread ls = .ok (interval, rest)) : rest.length ≤ ls.length := by
  unfold readOptionalInterval at h
  simp only [bind_eq_ok, Prod.exists] at h
  obtain ⟨marked, ls₁, h₁, h⟩ := h
  have := readOptional_length unread h₁
  split at h
  · simp only [bind_eq_ok, Prod.exists, pure_eq_ok, Prod.mk.injEq] at h
    obtain ⟨n, ls₂, h₂, -, rfl⟩ := h
    have := consumes_readInterval unread h₂
    omega
  · simp only [pure_eq_ok, Prod.mk.injEq] at h
    rw [← h.2]; exact this

theorem consumes_readArgument (hv : Consumes readValue) :
    Consumes (readArgument unread readValue endsFault?) := by
  intro ls a rest h
  unfold readArgument at h
  simp only [bind_eq_ok, Prod.exists] at h
  obtain ⟨excluded, ls₁, h₁, extent, ls₂, h₂, interval, ls₃, h₃, h⟩ := h
  have := readOptional_length unread h₁
  have := consumes_readWildcardOrExtent unread hv h₂
  have := readOptionalInterval_length unread h₃
  split at h
  · simp at h
  · simp only [pure_eq_ok, Prod.mk.injEq] at h
    rw [← h.2]; omega

theorem consumes_readDateArgument : Consumes (readDateArgument unread) :=
  consumes_readArgument unread (consumes_readDate unread)

theorem consumes_readDialArgument (d : Dial) : Consumes (readDialArgument unread d) :=
  consumes_readArgument unread (consumes_readDialValue unread d)

end Timetable

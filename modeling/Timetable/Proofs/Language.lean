/-
**The language of schedules.**

A text is read in two steps, into lexemes and from these into a schedule as written, and the
schedule as written means its groups.  The second step reads the grammar and the groups computed are
the ones meant, so together the texts that are schedules are known, and what each of them means.

Meaning asks for positive intervals, which every schedule has that the grammar derives.

Main results:

* `DerivesProgram.exists_infix_of_mem_gathered` — every expression has been derived from a stretch of
  the lexemes;
* `DerivesProgram.hasPositiveIntervals` — intervals derived are positive;
* `groupsOf_eq_malformed_iff_read`, `groupsOf_eq_empty_iff_read` — the errors of a text are the
  faults in its lexemes;
* `groupsOf_eq_ok_iff` — **a text means the groups of the schedule that its lexemes derive**, and
  means none if there is no such schedule.
-/

import Timetable.Proofs.Meaning
import Timetable.Proofs.ReaderLanguage
import Timetable.Schedule

set_option relaxedAutoImplicit false
set_option autoImplicit false

namespace Timetable

/-! ### Where parts of a schedule stand -/

/-- Everything in a list has been derived from a stretch of the lexemes. -/
theorem DerivesList.exists_infix_of_mem {α : Type} {thing : List Lexeme → α → Prop}
    {ls : List Lexeme} {as : List α} (h : DerivesList thing ls as) {a : α} (ha : a ∈ as) :
    ∃ ms, ms <:+: ls ∧ thing ms a := by
  induction h with
  | @last ls sep b hthing _ =>
      rw [List.mem_singleton.1 ha]
      exact ⟨ls, (List.prefix_append ls sep).isInfix, hthing⟩
  | @cons ls sep ms b as hthing _ _ ih =>
      rcases List.mem_cons.1 ha with rfl | ha
      · exact ⟨ls, (List.prefix_append ls (sep ++ ms)).isInfix, hthing⟩
      · obtain ⟨ns, hinfix, hns⟩ := ih ha
        have hsuffix : ms <:+ ls ++ (sep ++ ms) :=
          (List.suffix_append sep ms).trans (List.suffix_append ls (sep ++ ms))
        exact ⟨ns, hinfix.trans hsuffix.isInfix, hns⟩

/-- What stands between brackets is a stretch of the lexemes. -/
theorem infix_bracketed (l m : Lexeme) (ls : List Lexeme) : ls <:+: l :: (ls ++ [m]) :=
  (List.prefix_append ls [m]).isInfix.trans (List.suffix_cons l _).isInfix

/-- So is what stands between the brackets behind a word. -/
theorem infix_called (word : List Char) (ls : List Lexeme) :
    ls <:+: .word word :: .symbol .openParen :: (ls ++ [.symbol .closeParen]) :=
  (infix_bracketed _ _ ls).trans (List.suffix_cons _ _).isInfix

theorem DerivesExpression.exists_dateArgument {ls : List Lexeme} {as : List (Argument DateValue)}
    (h : DerivesExpression ls (.dates as)) {a : Argument DateValue} (ha : a ∈ as) :
    ∃ ms, ms <:+: ls ∧ DerivesDateArgument ms a := by
  cases h with
  | @dates word ls _ _ has =>
      obtain ⟨ms, hinfix, hms⟩ := has.exists_infix_of_mem ha
      exact ⟨ms, hinfix.trans (infix_called word ls), hms⟩

theorem DerivesExpression.exists_dialArgument {ls : List Lexeme} {d : Dial}
    {as : List (Argument Int)} (h : DerivesExpression ls (.dial d as)) {a : Argument Int}
    (ha : a ∈ as) : ∃ ms, ms <:+: ls ∧ DerivesDialArgument d ms a := by
  cases h with
  | @dial _ word ls _ _ has =>
      obtain ⟨ms, hinfix, hms⟩ := has.exists_infix_of_mem ha
      exact ⟨ms, hinfix.trans (infix_called word ls), hms⟩

/-- Every expression of a group has been derived from a stretch of the lexemes of the schedule. -/
theorem DerivesProgram.exists_infix_of_mem_gathered {ls : List Lexeme} {p : Program}
    (h : DerivesProgram ls p) {es : List Expression} (hes : es ∈ p.gathered) {e : Expression}
    (he : e ∈ es) : ∃ ms, ms <:+: ls ∧ DerivesExpression ms e := by
  rcases Program.exists_mem_of_mem_gathered hes he with hloose | ⟨es', hbraced, he'⟩
  · obtain ⟨ms, hinfix, hms⟩ := h.exists_infix_of_mem hloose
    cases hms with
    | loose hexpression => exact ⟨ms, hinfix, hexpression⟩
  · obtain ⟨ms, hinfix, hms⟩ := h.exists_infix_of_mem hbraced
    cases hms with
    | @braced ns _ hlist =>
        obtain ⟨ns', hinfix', hns'⟩ := hlist.exists_infix_of_mem he'
        exact ⟨ns', (hinfix'.trans (infix_bracketed _ _ ns)).trans hinfix, hns'⟩

/-! ### Intervals derived are positive -/

theorem DerivesArgument.interval_ne {α : Type} {value : List Lexeme → α → Prop}
    {mayBound : α → α → Prop} {ls : List Lexeme} {a : Argument α}
    (h : DerivesArgument value mayBound ls a) : a.interval ≠ some 0 := by
  have hpos {ms : List Lexeme} {interval : Option Nat} (hi : DerivesInterval ms interval) :
      interval ≠ some 0 := by
    cases hi with
    | absent => exact (Option.some_ne_none 0).symm
    | every n hn =>
        intro heq
        have := Option.some.inj heq
        omega
  cases h with
  | included _ hi => exact hpos hi
  | excluded _ hi _ => exact hpos hi

theorem DerivesExpression.hasPositiveIntervals {ls : List Lexeme} {e : Expression}
    (h : DerivesExpression ls e) : e.HasPositiveIntervals := by
  cases e with
  | dates as =>
      intro a ha
      obtain ⟨ms, -, hms⟩ := h.exists_dateArgument ha
      exact hms.interval_ne
  | dial d as =>
      intro a ha
      obtain ⟨ms, -, hms⟩ := h.exists_dialArgument ha
      exact hms.interval_ne

theorem DerivesProgram.hasPositiveIntervals {ls : List Lexeme} {p : Program}
    (h : DerivesProgram ls p) : ∀ es ∈ p.gathered, ∀ e ∈ es, e.HasPositiveIntervals := by
  intro es hes e he
  obtain ⟨ms, -, hms⟩ := h.exists_infix_of_mem_gathered hes he
  exact hms.hasPositiveIntervals

/-! ### Texts -/

theorem groupsOf_eq_ok_iff_read {text : String} {gs : List Group} :
    groupsOf text = .ok gs ↔
      ∃ p, Program.read (Scan.ofText text).ending.unread? (Scan.ofText text).lexemes = .ok p ∧
        p.groups = gs := by
  unfold groupsOf
  dsimp only
  cases Program.read (Scan.ofText text).ending.unread? (Scan.ofText text).lexemes with
  | ok p => simp
  | error fault => simp

theorem groupsOf_eq_error_iff_read {text : String} {e : ScheduleError} :
    groupsOf text = .error e ↔
      ∃ fault, Program.read (Scan.ofText text).ending.unread? (Scan.ofText text).lexemes =
          .error fault ∧ ScheduleError.ofFault text (Scan.ofText text) fault = e := by
  unfold groupsOf
  dsimp only
  cases Program.read (Scan.ofText text).ending.unread? (Scan.ofText text).lexemes with
  | ok p => simp
  | error fault => simp

/-- A text is malformed by a fault that is not a missing expression, at the place of the fault. -/
theorem groupsOf_eq_malformed_iff_read {text message input : String} {span : Span} :
    groupsOf text = .error (.malformed message span input) ↔
      ∃ fault, Program.read (Scan.ofText text).ending.unread? (Scan.ofText text).lexemes =
          .error fault ∧ fault.cause ≠ .noExpression ∧
        span = (Scan.ofText text).spanFromEnd fault.left ∧
          message = fault.cause.message span.start ∧ input = text := by
  rw [groupsOf_eq_error_iff_read]
  refine exists_congr fun fault => and_congr_right fun _ => ?_
  unfold ScheduleError.ofFault
  split
  · rename_i hcause
    exact ⟨nofun, fun h => absurd hcause h.1⟩
  · rename_i hcause
    constructor
    · intro h
      cases h
      exact ⟨hcause, rfl, rfl, rfl⟩
    · rintro ⟨-, rfl, rfl, rfl⟩
      rfl

/-- A text is without an expression if reading its lexemes misses one. -/
theorem groupsOf_eq_empty_iff_read {text message : String} :
    groupsOf text = .error (.empty message) ↔ message = Cause.noExpression.message 0 ∧
      ∃ left, Program.read (Scan.ofText text).ending.unread? (Scan.ofText text).lexemes =
        .error ⟨.noExpression, left⟩ := by
  rw [groupsOf_eq_error_iff_read]
  constructor
  · rintro ⟨⟨cause, left⟩, hread, herror⟩
    unfold ScheduleError.ofFault at herror
    split at herror
    · rename_i hcause
      obtain rfl : cause = .noExpression := hcause
      cases herror
      exact ⟨rfl, left, hread⟩
    · cases herror
  · rintro ⟨rfl, left, hread⟩
    exact ⟨_, hread, rfl⟩

/-- No text is wrong because no time was found. -/
theorem groupsOf_ne_noValidTime (text source : String) :
    groupsOf text ≠ .error (.noValidTime source) := by
  intro h
  obtain ⟨fault, -, herror⟩ := groupsOf_eq_error_iff_read.1 h
  unfold ScheduleError.ofFault at herror
  split at herror
  · cases herror
  · cases herror

/-- **A text means the groups of the schedule that its lexemes derive.**  It means groups at all
only if it can be read as lexemes to its end and these are a schedule. -/
theorem groupsOf_eq_ok_iff (text : String) (gs : List Group) :
    groupsOf text = .ok gs ↔
      (Scan.ofText text).ending.unread? = none ∧
        ∃ p, DerivesProgram (Scan.ofText text).lexemes p ∧ p.Means gs := by
  rw [groupsOf_eq_ok_iff_read]
  constructor
  · rintro ⟨p, hread, hgroups⟩
    obtain ⟨hend, hderives⟩ := Program.read_eq_ok_iff.1 hread
    have hmeans := Program.groups_eq_iff_means hderives.hasPositiveIntervals gs
    exact ⟨hend, p, hderives, hmeans.1 hgroups⟩
  · rintro ⟨hend, p, hderives, hmeans⟩
    have hgroups := Program.groups_eq_iff_means hderives.hasPositiveIntervals gs
    exact ⟨p, Program.read_eq_ok_iff.2 ⟨hend, hderives⟩, hgroups.2 hmeans⟩

end Timetable

/-
**How many lines the full display of an error has.**

The full display of a malformed text is laid out in three lines, one for the words of the error, one
for the window and one for the caret, and the full display of any other error is one line.  White
space in the window is shown as spaces, so the window never breaks into lines.  The words are not
looked at like that, and they may quote a text that goes over several lines: where a text cannot be
read, all that is left of it, and where a search has found nothing, the whole text of the schedule.
Each line end in there adds a line.  Nothing else that is quoted can hold one.

Main definitions:

* `linesOf`, `OneLine` — the lines of a text, and texts without a line end;
* `ScheduleError.KeepsLayout` — **the full display has as many lines as it should**;
* `ScheduleError.QuotesLineEnd` — the words quote the rest of the text with a line end in it.

Main results:

* `linesOf_rich` — the lines of the full display are those of the words, the window and the caret;
* `oneLine_message_of_quotesFrom` — **words that do not quote the rest of a text are on one line**;
* `ScheduleError.keepsLayout_iff` — **the layout is kept exactly if no line end is quoted**.
-/

import Timetable.Proofs.ErrorPlace
import Timetable.Proofs.QuotedText
import Timetable.Proofs.SearchWindow
import Timetable.Proofs.Written

set_option relaxedAutoImplicit false
set_option autoImplicit false

namespace Timetable

/-! ### Lines -/

/-- The lines of a text, which line ends keep apart. -/
def linesOf (s : String) : List String := (s.toList.splitOn '\n').map String.ofList

/-- There is no line end in the text. -/
def OneLine (s : String) : Prop := '\n' ∉ s.toList

section Lines

variable {s t : String}

@[simp] theorem oneLine_append_iff : OneLine (s ++ t) ↔ OneLine s ∧ OneLine t := by
  rw [OneLine, String.toList_append, List.mem_append, not_or]
  rfl

@[simp] theorem oneLine_ofList_iff {cs : List Char} : OneLine (String.ofList cs) ↔ '\n' ∉ cs := by
  rw [OneLine, String.toList_ofList]

/-- A line end keeps what is before it apart from what is behind it. -/
theorem linesOf_append (s t : String) : linesOf (s ++ "\n" ++ t) = linesOf s ++ linesOf t := by
  have hchars : (s ++ "\n" ++ t).toList = s.toList ++ '\n' :: t.toList := by simp
  rw [linesOf, hchars, List.splitOn_append_cons_self, List.map_append]
  rfl

theorem linesOf_of_oneLine (h : OneLine s) : linesOf s = [s] := by
  rw [linesOf, List.splitOn_eq_singleton h, List.map_singleton, String.ofList_toList]

theorem linesOf_ne_nil (s : String) : linesOf s ≠ [] :=
  List.map_eq_nil_iff.not.2 (List.splitOn_ne_nil '\n' s.toList)

/-- A text has more than one line if there is a line end in it. -/
theorem length_linesOf_eq_one_iff : (linesOf s).length = 1 ↔ OneLine s := by
  constructor
  · intro hlength hmem
    obtain ⟨before, after, hchars⟩ := List.append_of_mem hmem
    have htext : s = String.ofList before ++ "\n" ++ String.ofList after := by
      rw [← String.toList_inj, hchars]
      simp
    have hbefore := List.length_pos_iff.2 (linesOf_ne_nil (String.ofList before))
    have hafter := List.length_pos_iff.2 (linesOf_ne_nil (String.ofList after))
    rw [htext, linesOf_append, List.length_append] at hlength
    omega
  · intro h
    rw [linesOf_of_oneLine h]
    rfl

end Lines

/-! ### Words without a line end -/

/-- A number is written in digits and a sign. -/
theorem oneLine_toString_nat (n : Nat) : OneLine (toString n) := by
  have hdigits : toString n = String.ofList (Nat.toDigits 10 n) := Nat.repr_eq_ofList_toDigits
  rw [hdigits, oneLine_ofList_iff]
  intro hmem
  cases Nat.isDigit_of_mem_toDigits (by decide) (by decide) hmem

theorem oneLine_toString_int (n : Int) : OneLine (toString n) := by
  cases n with
  | ofNat n => exact oneLine_toString_nat n
  | negSucc n =>
      have hsign : toString (Int.negSucc n) = "-" ++ toString (n + 1) := rfl
      rw [hsign, oneLine_append_iff]
      exact ⟨by simp [OneLine], oneLine_toString_nat (n + 1)⟩

theorem oneLine_intercalate {sep : String} {ss : List String} (hsep : OneLine sep)
    (h : ∀ s ∈ ss, OneLine s) : OneLine (sep.intercalate ss) := by
  induction ss with
  | nil => simp [OneLine]
  | cons s ss ih =>
      obtain ⟨hs, hss⟩ := List.forall_mem_cons.1 h
      cases ss with
      | nil => simpa using hs
      | cons t ss =>
          rw [String.intercalate_cons_cons, oneLine_append_iff, oneLine_append_iff]
          exact ⟨⟨hs, hsep⟩, ih hss⟩

theorem oneLine_name (form : Form) : OneLine form.name := by
  cases form with
  | symbol s => cases s <;> simp [OneLine, Form.name, Symbol.spelling]
  | word => simp [OneLine, Form.name]
  | integer => simp [OneLine, Form.name]

theorem oneLine_expectedText (forms : List Form) : OneLine (expectedText forms) := by
  have hlist : OneLine (String.intercalate ", " (forms.map Form.name)) := by
    refine oneLine_intercalate (by simp [OneLine]) fun s hs => ?_
    obtain ⟨form, -, rfl⟩ := List.mem_map.1 hs
    exact oneLine_name form
  unfold expectedText
  split
  · exact oneLine_name _
  · rw [oneLine_append_iff]
    exact ⟨by simp [OneLine], hlist⟩

theorem oneLine_foundText (found : Option Form) : OneLine (foundText found) := by
  cases found with
  | none => simp [OneLine, foundText]
  | some form => exact oneLine_name form

/-- A lexeme has no line end in it. -/
theorem Lexeme.lineEnd_notMem {l : Lexeme} (h : l.IsSpellable) : '\n' ∉ l.spelling := by
  intro hmem
  cases l with
  | symbol s => cases s <;> simp [Lexeme.spelling, Symbol.spelling] at hmem
  | word letters => cases h.2 '\n' hmem
  | integer n =>
      rcases List.mem_append.1 hmem with hsign | hdigit
      · split at hsign <;> simp at hsign
      · cases h.2 '\n' hdigit

/-- **Words that do not quote the rest of a text are on one line**, if the lexemes they quote can be
written. -/
theorem oneLine_message_of_quotesFrom {unread : Option (List Char)} {ls : List Lexeme}
    {fault : Fault} (h : fault.QuotesFrom unread ls) (hls : ∀ l ∈ ls, l.IsSpellable)
    (hread : ∀ text, fault.cause ≠ .unreadable text) (index : Nat) :
    OneLine (fault.cause.message index) := by
  obtain ⟨cause, left⟩ := fault
  unfold Cause.message
  -- what is quoted in the words has no line end, and the words around it are given
  cases cause with
  | unreadable text => exact absurd rfl (hread text)
  | unknownKind name =>
      have hname : Lexeme.word name ∈ ls := h
      have hquoted : '\n' ∉ name := Lexeme.lineEnd_notMem (hls _ hname)
      simp only [oneLine_append_iff, oneLine_ofList_iff, hquoted, not_false_eq_true, and_true]
      and_intros <;> exact oneLine_ofList_iff.2 (by simp)
  | unknownDay name =>
      have hname : Lexeme.word name ∈ ls := h
      have hquoted : '\n' ∉ name := Lexeme.lineEnd_notMem (hls _ hname)
      simp only [oneLine_append_iff, oneLine_ofList_iff, hquoted, not_false_eq_true, and_true]
      and_intros <;> exact oneLine_ofList_iff.2 (by simp)
  | outOfRange n =>
      have hnumeral : Lexeme.integer n ∈ ls := h
      have hquoted : '\n' ∉ n.spelling := Lexeme.lineEnd_notMem (hls _ hnumeral)
      simp only [oneLine_append_iff, oneLine_ofList_iff, hquoted, not_false_eq_true, and_true]
      and_intros <;> exact oneLine_ofList_iff.2 (by simp)
  | _ =>
      simp only [oneLine_append_iff, oneLine_toString_nat, oneLine_toString_int,
        oneLine_expectedText, oneLine_foundText, and_true, true_and]
      and_intros <;> exact oneLine_ofList_iff.2 (by simp)

/-- What is quoted as unreadable is the text from the place of the fault on. -/
theorem Fault.QuotesFrom.exists_before {text : String} {fault : Fault}
    (h : fault.QuotesFrom (Scan.ofText text).ending.unread? (Scan.ofText text).lexemes)
    {rest : List Char} (hcause : fault.cause = .unreadable rest) :
    ∃ before : String, text = before ++ String.ofList rest ∧
      ((Scan.ofText text).spanFromEnd fault.left).start = before.utf8ByteSize := by
  obtain ⟨cause, left⟩ := fault
  cases hcause
  obtain ⟨hunread, hleft⟩ := h
  obtain hending | ⟨before, c, after, htext, hending, -⟩ := Scan.ending_ofText_cases text
  · rw [hending] at hunread
    cases hunread
  · rw [hending] at hunread
    cases hunread
    refine ⟨before, ?_, ?_⟩
    · rw [← String.toList_inj, htext, Scan.toList_append_singleton_append]
      simp
    · rw [Scan.spanFromEnd, if_pos hleft, hending]
      rfl

/-! ### The full display -/

theorem Schedule.ofText_eq_error_iff {text : String} {e : ScheduleError} :
    Schedule.ofText text = .error e ↔ groupsOf text = .error e := by
  unfold Schedule.ofText
  cases groupsOf text with
  | error e' => simp [Except.map]
  | ok gs => simp [Except.map]

namespace ScheduleError

/-- The lines below the words of an error: for a malformed text the window around its place and the
caret. -/
def pointer : ScheduleError → List String
  | malformed _ span input =>
    let place := (charIndex? input.toList span.start).getD input.toList.length
    [String.ofList (' ' :: ' ' :: window input.toList place), String.ofList (caretLine place)]
  | empty _ | noValidTime _ => []

/-- **The full display has as many lines as it should**: three for a malformed text, which are the
words, the window and the caret, and one for any other error. -/
def KeepsLayout (e : ScheduleError) : Prop :=
  match e with
  | malformed _ _ _ => (linesOf e.rich).length = 3
  | empty _ | noValidTime _ => (linesOf e.rich).length = 1

/-- The words of the error quote all that is left of the text at its place, and there is a line end
in it. -/
def QuotesLineEnd (text : String) (e : ScheduleError) : Prop :=
  ∃ before rest : String, text = before ++ rest ∧ e.index = some before.utf8ByteSize ∧
    e.message = "syntax error near: " ++ rest ∧ ¬ OneLine rest

/-- **The lines of the full display are those of the words, the window and the caret.**  A line end
that the window would show is shown as a space. -/
theorem linesOf_rich (e : ScheduleError) :
    linesOf e.rich = linesOf ("error: " ++ e.message) ++ e.pointer := by
  cases e with
  | malformed message span input =>
      set place := (charIndex? input.toList span.start).getD input.toList.length
      have hpoints := pointsAt_window input.toList place
      have hwindow : OneLine (String.ofList (' ' :: ' ' :: window input.toList place)) := by
        rw [oneLine_ofList_iff]
        intro hmem
        cases hpoints.spaces '\n' hmem (by decide)
      have hcaret : OneLine (String.ofList (caretLine place)) := by
        rw [oneLine_ofList_iff, hpoints.caret_eq]
        simp
      rw [rich_malformed_getD, linesOf_append, linesOf_append, linesOf_of_oneLine hwindow,
        linesOf_of_oneLine hcaret, List.append_assoc]
      rfl
  | empty message => exact (List.append_nil _).symm
  | noValidTime source => exact (List.append_nil _).symm

/-- The layout is kept exactly if the words are on one line. -/
theorem keepsLayout_iff_oneLine {e : ScheduleError} : e.KeepsLayout ↔ OneLine e.message := by
  have hwords : OneLine ("error: " ++ e.message) ↔ OneLine e.message :=
    oneLine_append_iff.trans (and_iff_right (by simp [OneLine]))
  have hlength : (linesOf e.rich).length =
      (linesOf ("error: " ++ e.message)).length + e.pointer.length := by
    rw [linesOf_rich, List.length_append]
  rw [← hwords, ← length_linesOf_eq_one_iff]
  cases e with
  | malformed message span input =>
      have htwo : (malformed message span input).pointer.length = 2 := rfl
      rw [KeepsLayout, hlength, htwo]
      omega
  | empty message =>
      have hnone : (empty message).pointer.length = 0 := rfl
      rw [KeepsLayout, hlength, hnone, Nat.add_zero]
  | noValidTime source =>
      have hnone : (noValidTime source).pointer.length = 0 := rfl
      rw [KeepsLayout, hlength, hnone, Nat.add_zero]

/-- The error in a text has its words on one line unless they quote the rest of the text and a line
end in it. -/
theorem oneLine_message_iff {text : String} {e : ScheduleError} (h : groupsOf text = .error e) :
    OneLine e.message ↔ ¬ e.QuotesLineEnd text := by
  constructor
  · intro hmessage hquotes
    obtain ⟨before, rest, -, -, hwords, hrest⟩ := hquotes
    rw [hwords, oneLine_append_iff] at hmessage
    exact hrest hmessage.2
  · intro hquotes
    cases e with
    | malformed message span input =>
        obtain ⟨fault, hread, -, hspan, rfl, rfl⟩ := groupsOf_eq_malformed_iff_read.1 h
        have hfrom := Program.quotesFrom_of_read_eq_error hread
        by_cases hcause : ∃ rest, fault.cause = .unreadable rest
        · -- what is quoted starts at the place of the error
          obtain ⟨rest, hcause⟩ := hcause
          obtain ⟨before, htext, hstart⟩ := hfrom.exists_before hcause
          have hwords : fault.cause.message span.start =
              "syntax error near: " ++ String.ofList rest := by
            rw [hcause]
            rfl
          by_contra hbreaks
          refine hquotes ⟨before, String.ofList rest, htext, ?_, hwords, fun hrest => hbreaks ?_⟩
          · rw [hspan]
            exact congrArg some hstart
          · show OneLine (fault.cause.message span.start)
            rw [hwords, oneLine_append_iff]
            exact ⟨by simp [OneLine], hrest⟩
        · refine oneLine_message_of_quotesFrom hfrom (fun l hl => ?_) (not_exists.1 hcause) _
          obtain ⟨t, ht, rfl⟩ := List.mem_map.1 hl
          exact Scan.isSpellable_of_mem ht
    | empty message =>
        obtain ⟨rfl, -⟩ := groupsOf_eq_empty_iff_read.1 h
        show OneLine "schedule must contain at least one expression"
        simp [OneLine]
    | noValidTime source => exact absurd h (groupsOf_ne_noValidTime text source)

/-- **The layout is kept exactly if no line end is quoted.**  The full display of an error has the
lines of its words and, for a malformed text, one for the window and one for the caret.  Where a
text is no schedule, there are too many of them if the words quote the rest of the text from a
character that cannot be read and there is a line end in it, and where a search has found nothing,
if there is a line end in the text of the schedule. -/
theorem keepsLayout_iff (text : String) (t : Instant) (e : ScheduleError) :
    linesOf e.rich = linesOf ("error: " ++ e.message) ++ e.pointer ∧
      (Schedule.ofText text = .error e → (e.KeepsLayout ↔ ¬ e.QuotesLineEnd text)) ∧
      ∀ s, Schedule.ofText text = .ok s → s.next t = .error e ∨ s.previous t = .error e →
        (e.KeepsLayout ↔ OneLine text) := by
  refine ⟨linesOf_rich e, fun herror => ?_, fun s hs hsearch => ?_⟩
  · have hgroups := Schedule.ofText_eq_error_iff.1 herror
    rw [keepsLayout_iff_oneLine]
    exact oneLine_message_iff hgroups
  · obtain ⟨hsource, -⟩ := Schedule.ofText_eq_ok_iff.1 hs
    have hnone : e = .noValidTime s.source := by
      rcases hsearch with hnext | hprevious
      · exact (Schedule.search_eq_error_iff.1 hnext).1
      · exact (Schedule.search_eq_error_iff.1 hprevious).1
    rw [keepsLayout_iff_oneLine, hnone, hsource]
    show OneLine ("no valid time found for schedule '" ++ text ++ "'") ↔ OneLine text
    rw [oneLine_append_iff, oneLine_append_iff]
    simp [OneLine]

/-- Line ends are white space between expressions.  A schedule of two lines that is over is reported
in two lines and not in one, and where a character that cannot be read follows a line end and
precedes another, four lines show it and not three. -/
theorem layout_broken_by_lineEnd :
    (let text := "date(2001/1/1)\nhours(5)"
     let t : Instant := ⟨⟨2023, 3, 1, by decide⟩, ⟨0, 0, 0⟩, 0⟩
     let e : ScheduleError := .noValidTime text
     let s : Schedule := ⟨text, (groupsOf text).toOption.getD []⟩
     Schedule.ofText text = .ok s ∧ s.next t = .error e ∧ s.previous t = .error e ∧
       (linesOf e.rich).length = 2 ∧ ¬ e.KeepsLayout) ∧
    (let text := "hours(5)\n? min(0)\nsec(1)"
     let e : ScheduleError := .malformed "syntax error near: ? min(0)\nsec(1)" ⟨9, 10⟩ text
     Schedule.ofText text = .error e ∧ (linesOf e.rich).length = 4 ∧ ¬ e.KeepsLayout) := by
  constructor
  · intro text t e s
    have htwo : (linesOf e.rich).length = 2 := by decide +kernel
    refine ⟨by decide +kernel, by decide +kernel, by decide +kernel, htwo, fun hkeeps => ?_⟩
    rw [KeepsLayout, htwo] at hkeeps
    cases hkeeps
  · intro text e
    have hfour : (linesOf e.rich).length = 4 := by decide +kernel
    refine ⟨by decide +kernel, hfour, fun hkeeps => ?_⟩
    rw [KeepsLayout, hfour] at hkeeps
    cases hkeeps

end ScheduleError

end Timetable

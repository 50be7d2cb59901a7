/-
**The command goes on from its own answers.**

The command prints a time or a schedule, and both can be given back to it.  A time printed names the
instant that was found, which is its own previous time.  A canonical text is read back to the groups
it was written from, so it is its own canonical text and has the same times; only the text that an
error names is another.

This is so for all conventions of reading arguments and of reading and writing times that understand
options and an expression behind them and read again the times they have written.  A reference may
be given in any form that they read.

An expression reaches the command as an argument that does not start like an option, or behind two
dashes.  A canonical text starts with a brace and is never taken for an option.

Main definitions:

* `Conventions.Prints`, `Conventions.FindsNoTime` — how the command ends, whatever the current time.

Main results:

* `groupsOf_canonicalText_of_ok` — the canonical text of what a text means has the same meaning;
* `Conventions.command_search_eq_answer_iff`, `Conventions.command_search_eq_noValidTime_iff` — what
  it takes to print a time, and to find none;
* `Conventions.readsArguments_standard`, `Conventions.readsBack_standard` — the conventions that the
  program is run with are such;
* `command_goes_on_from_answers` — **every answer can be given back to the command**.
-/

import Timetable.Command
import Timetable.Proofs.Coherence
import Timetable.Proofs.GroupUnion
import Timetable.Proofs.InstantRoundTrip
import Timetable.Proofs.RoundTrip
import Timetable.Proofs.Written

set_option relaxedAutoImplicit false
set_option autoImplicit false

namespace Timetable

/-! ### Canonical texts of what texts mean -/

section Canonical

variable {text : String} {gs : List Group}

/-- **The canonical text of what a text means has the same meaning.** -/
theorem groupsOf_canonicalText_of_ok (h : groupsOf text = .ok gs) :
    groupsOf (canonicalText gs) = .ok gs := by
  obtain ⟨hne, hgood⟩ := wellFormed_of_groupsOf h
  have hseconds : ∀ g ∈ gs, g.seconds.isEmpty = false := fun g hg => (hgood g hg).1
  have hderives := derivesProgram_canonical hne (fun g hg => (hgood g hg).2) hseconds
  obtain ⟨hlexemes, hending⟩ := Scan.ofText_spell (readable_canonical gs)
  refine groupsOf_eq_ok_iff_read.2 ⟨canonicalProgram gs, ?_, groups_canonicalProgram hseconds⟩
  unfold canonicalText
  rw [hlexemes, hending]
  exact Program.read_eq_ok_iff.2 ⟨rfl, hderives⟩

/-- The canonical text of groups starts with a brace. -/
theorem exists_toList_canonicalText (hne : gs ≠ []) :
    ∃ cs, (canonicalText gs).toList = '{' :: cs := by
  obtain ⟨g, gs, rfl⟩ := List.exists_cons_of_ne_nil hne
  have hstart : ∃ ls, canonical (g :: gs) = .symbol .openBrace :: ls := by
    unfold canonical
    cases gs with
    | nil => exact ⟨_, rfl⟩
    | cons h gs => exact ⟨_, rfl⟩
  obtain ⟨ls, hls⟩ := hstart
  refine ⟨spell ls, ?_⟩
  rw [canonicalText, String.toList_ofList, hls, spell_cons]
  rfl

/-- A canonical text is never taken for an option. -/
theorem namesExpression_canonicalText (hne : gs ≠ []) :
    NamesExpression (canonicalText gs) [canonicalText gs] := by
  obtain ⟨cs, hcs⟩ := exists_toList_canonicalText hne
  refine NamesExpression.plain ?_
  rw [hcs]
  simp

end Canonical

/-! ### Requests -/

namespace Request

/-- The options that ask for a search in a direction. -/
def searchOptions : Direction → List String
  | .forward => []
  | .backward => ["-p"]

/-- The request for a search in a direction. -/
def search (dir : Direction) (text reference : String) : Request where
  expression := some text
  reference := some reference
  previous := decide (dir = .backward)

variable {e : String} {args : List String}

theorem asksFrom_search (h : NamesExpression e args) (dir : Direction) (value : String) :
    AsksFrom {} (searchOptions dir ++ ("--from=" ++ value) :: args) (search dir e value) := by
  cases dir with
  | forward => exact .reference value rfl (.expression rfl h)
  | backward =>
      have hname : "-p" ∈ Switch.previous.names := by decide
      exact .switch .previous hname rfl (.reference value rfl (.expression rfl h))

theorem asksFrom_canonical (h : NamesExpression e args) :
    AsksFrom {} ("--canonical" :: args) { expression := some e, canonical := true } := by
  have hname : "--canonical" ∈ Switch.canonical.names := by decide
  exact .switch .canonical hname rfl (.expression rfl h)

end Request

namespace Conventions

variable {c : Conventions}

/-! ### Single runs -/

section Run

variable {e value : String} {args : List String} {now : Instant}

/-- A search with a time for its reference ends as the search of the schedule does. -/
theorem timeText_search {t : Instant} (ht : c.readTime value = .ok t) (dir : Direction)
    (s : Schedule) (now : Instant) :
    c.timeText (Request.search dir e value) s now =
      match s.search dir t with
      | .error error => .error (.schedule error)
      | .ok u => .ok (c.writeTime u) := by
  have href : c.referenceTime (Request.search dir e value) now = .ok t := by
    simp only [referenceTime, Request.search, ht, Except.mapError]
  rw [timeText, href]
  cases dir with
  | forward => rfl
  | backward => rfl

/-- A search with another text for its reference is refused because of it. -/
theorem timeText_search_of_error {reason : String} (ht : c.readTime value = .error reason)
    (dir : Direction) (s : Schedule) (now : Instant) :
    c.timeText (Request.search dir e value) s now = .error (.badReference reason) := by
  have href : c.referenceTime (Request.search dir e value) now = .error (.badReference reason) := by
    simp only [referenceTime, Request.search, ht, Except.mapError]
  rw [timeText, href]
  rfl

/-- A search needs a schedule before it looks at the reference. -/
theorem answerText_search (dir : Direction) (e value : String) (now : Instant) :
    c.answerText (Request.search dir e value) now =
      match groupsOf e with
      | .error error => .error (.schedule error)
      | .ok gs => c.timeText (Request.search dir e value) ⟨e, gs⟩ now := by
  rw [answerText]
  simp only [Request.search, Schedule.ofText]
  cases groupsOf e with
  | error error => rfl
  | ok gs => rfl

/-- What a search ends with: the error of the expression, then that of the reference, and last what
the search of the schedule yields. -/
theorem command_search (hargs : c.ReadsArguments) (h : NamesExpression e args) (dir : Direction)
    (value : String) (now : Instant) :
    c.command now (Request.searchOptions dir ++ ("--from=" ++ value) :: args) =
      match groupsOf e, c.readTime value with
      | .error error, _ => .refusal (.schedule error)
      | .ok _, .error reason => .refusal (.badReference reason)
      | .ok gs, .ok t =>
        match Schedule.search ⟨e, gs⟩ dir t with
        | .error error => .refusal (.schedule error)
        | .ok u => .answer (c.writeTime u) := by
  rw [command, hargs _ _ (Request.asksFrom_search h dir value)]
  dsimp only
  rw [outcome, answerText_search]
  cases groupsOf e with
  | error error => rfl
  | ok gs =>
      dsimp only
      cases ht : c.readTime value with
      | error reason => rw [timeText_search_of_error ht]
      | ok t =>
          rw [timeText_search ht]
          dsimp only
          cases Schedule.search ⟨e, gs⟩ dir t with
          | error error => rfl
          | ok u => rfl

/-- **What it takes to print a time**: a schedule, a reference, and a time of the schedule. -/
theorem command_search_eq_answer_iff (hargs : c.ReadsArguments) (h : NamesExpression e args)
    (dir : Direction) {answer : String} :
    c.command now (Request.searchOptions dir ++ ("--from=" ++ value) :: args) = .answer answer ↔
      ∃ gs t u, groupsOf e = .ok gs ∧ c.readTime value = .ok t ∧
        Schedule.search ⟨e, gs⟩ dir t = .ok u ∧ c.writeTime u = answer := by
  rw [command_search hargs h]
  cases groupsOf e with
  | error error => simp
  | ok gs =>
      cases c.readTime value with
      | error reason => simp
      | ok t => cases hu : Schedule.search ⟨e, gs⟩ dir t <;> simp [hu]

/-- **What it takes to find no time**: a schedule, a reference, and no time of the schedule. -/
theorem command_search_eq_noValidTime_iff (hargs : c.ReadsArguments) (h : NamesExpression e args)
    (dir : Direction) {source : String} :
    c.command now (Request.searchOptions dir ++ ("--from=" ++ value) :: args) =
        .refusal (.schedule (.noValidTime source)) ↔
      ∃ gs t, groupsOf e = .ok gs ∧ c.readTime value = .ok t ∧
        Schedule.search ⟨e, gs⟩ dir t = .error (.noValidTime source) := by
  have hne := groupsOf_ne_noValidTime e source
  rw [command_search hargs h]
  cases hgs : groupsOf e with
  | error error =>
      rw [hgs] at hne
      simpa using hne
  | ok gs =>
      cases c.readTime value with
      | error reason => simp
      | ok t => cases hu : Schedule.search ⟨e, gs⟩ dir t <;> simp [hu]

end Run

/-! ### Chains of runs -/

/-- The command ends well and prints the text, whatever the current time. -/
def Prints (c : Conventions) (args : List String) (text : String) : Prop :=
  ∀ now, c.command now args = .answer text

/-- The command tells that the schedule of the text has no time, whatever the current time. -/
def FindsNoTime (c : Conventions) (args : List String) (text : String) : Prop :=
  ∀ now, c.command now args = .refusal (.schedule (.noValidTime text))

section Chain

variable {e T N : String} {args : List String} {now : Instant} {gs : List Group}

/-- The canonical text is printed of every schedule. -/
theorem prints_canonical (hargs : c.ReadsArguments) (h : NamesExpression e args)
    (hgs : groupsOf e = .ok gs) : c.Prints ("--canonical" :: args) (canonicalText gs) := by
  intro now
  rw [command, hargs _ _ (Request.asksFrom_canonical h)]
  dsimp only [outcome, answerText]
  rw [Schedule.ofText, hgs]
  rfl

/-- A time that was found is its own previous time. -/
theorem prints_previous_of_answer (hargs : c.ReadsArguments) (htimes : c.ReadsBack)
    (h : NamesExpression e args)
    (hnext : c.command now (("--from=" ++ T) :: args) = .answer N) :
    c.Prints ("-p" :: ("--from=" ++ N) :: args) N := by
  obtain ⟨gs, t, u, hgs, -, hu, rfl⟩ := (command_search_eq_answer_iff hargs h .forward).1 hnext
  obtain ⟨hwhole, hadmits⟩ := Schedule.isWhole_of_search hu
  intro now
  exact (command_search_eq_answer_iff hargs h .backward).2
    ⟨gs, u, u, hgs, htimes u, Schedule.previous_self hwhole hadmits, rfl⟩

/-- The canonical text printed can be given back, as a schedule with the same groups. -/
theorem exists_prints_canonical (hargs : c.ReadsArguments) (h : NamesExpression e args)
    (hgs : groupsOf e = .ok gs) :
    ∃ C, c.Prints ("--canonical" :: args) C ∧ NamesExpression C [C] ∧ groupsOf C = .ok gs ∧
      ∀ argsC, NamesExpression C argsC → c.Prints ("--canonical" :: argsC) C := by
  have hC := groupsOf_canonicalText_of_ok hgs
  have hplain := namesExpression_canonicalText (wellFormed_of_groupsOf hgs).1
  exact ⟨canonicalText gs, prints_canonical hargs h hgs, hplain, hC,
    fun argsC hargsC => prints_canonical hargs hargsC hC⟩

/-- Two texts with the same groups have the same times; only the errors name the texts. -/
theorem search_of_source (source source' : String) (gs : List Group) (dir : Direction)
    (t : Instant) :
    Schedule.search ⟨source', gs⟩ dir t =
      (Schedule.search ⟨source, gs⟩ dir t).mapError fun _ => .noValidTime source' :=
  Schedule.search_of_admits_eq (s := ⟨source', gs⟩) (a := ⟨source, gs⟩) (fun _ => rfl) dir t

end Chain

/-! ### The conventions that the program is run with -/

section Standard

variable {r r' : Request} {args : List String} {e : String}

theorem shape_of_head (h : e.toList.head? ≠ some '-') : Shape.of e = .plain := by
  unfold Shape.of
  dsimp only
  cases hcs : e.toList with
  | nil => rfl
  | cons d cs =>
      have hd : d ≠ '-' := by
        rintro rfl
        rw [hcs] at h
        exact h rfl
      split <;> simp_all

/-- What an option with its value behind an equals sign looks like. -/
theorem shape_from (value : String) :
    Shape.of ("--from=" ++ value) = .long "--from" (some value) := by
  have hlist : ("--from=" ++ value).toList =
      '-' :: '-' :: 'f' :: 'r' :: 'o' :: 'm' :: '=' :: value.toList := by
    rw [String.toList_append]
    rfl
  unfold Shape.of
  rw [hlist]
  simp

theorem readAll_expression (hr : r.expression = none) (h : NamesExpression e args) :
    r.readAll args = .ok { r with expression := some e } := by
  have hexpress : r.express e = .ok { r with expression := some e } := by
    rw [Request.express, hr]
    rfl
  cases h with
  | plain hhead =>
      simp only [Request.readAll, shape_of_head hhead, hexpress]
      rfl
  | behindDashes =>
      have hdashes : Shape.of "--" = .endOfOptions := by decide
      simp only [Request.readAll, hdashes, List.foldlM_cons, List.foldlM_nil, hexpress]
      rfl

theorem readAll_reference (hr : r.reference = none) (text : String) (args : List String) :
    r.readAll (("--from=" ++ text) :: args) = { r with reference := some text }.readAll args := by
  have hrefer : r.refer text = .ok { r with reference := some text } := by
    rw [Request.refer, hr]
    rfl
  have hversion : "--from" ≠ "--version" := by decide
  simp only [Request.readAll, shape_from, if_neg hversion, hrefer]
  rfl

/-- A name of a switch is a letter behind one dash or a word behind two that no other option has. -/
theorem switch_name_cases {s : Switch} {name : String} (h : name ∈ s.names) :
    (s = .previous ∧ name = "-p") ∨
      (Shape.of name = .long name none ∧ name ≠ "--version" ∧ name ≠ "--from" ∧
        Request.switch? name = some s) := by
  have htable : ∀ s ∈ Switch.all, ∀ name ∈ s.names, (s = .previous ∧ name = "-p") ∨
      (Shape.of name = .long name none ∧ name ≠ "--version" ∧ name ≠ "--from" ∧
        Request.switch? name = some s) := by decide
  have hs : s ∈ Switch.all := by cases s <;> decide
  exact htable s hs name h

/-- A switch is read by any of its names. -/
theorem readAll_switch {s : Switch} {name : String} (hname : name ∈ s.names)
    (hr : r.has s = false) (args : List String) :
    r.readAll (name :: args) = (r.setOn s).readAll args := by
  have hswitch (name : String) : r.switchOn s name = .ok (r.setOn s) := by
    rw [Request.switchOn, hr]
    rfl
  rcases switch_name_cases hname with ⟨rfl, rfl⟩ | ⟨hshape, hversion, hfrom, hs⟩
  · have hshape : Shape.of "-p" = .letters ['p'] := by decide
    simp only [Request.readAll, hshape, Request.readLetters, hswitch]
    rfl
  · simp only [Request.readAll, hshape, if_neg hversion, if_neg hfrom, Request.readSwitch, hs,
      hswitch]
    rfl

/-- Arguments are read as they ask, one after the other. -/
theorem readAll_of_asksFrom (h : AsksFrom r args r') : r.readAll args = .ok r' := by
  induction h with
  | expression hr h => exact readAll_expression hr h
  | @reference r r' args text hr _ ih => exact (readAll_reference hr text args).trans ih
  | @switch r r' args name s hname hr _ ih => exact (readAll_switch hname hr args).trans ih

end Standard

theorem readsArguments_standard : standard.ReadsArguments :=
  fun _ _ h => readAll_of_asksFrom h

theorem readsBack_standard : standard.ReadsBack := by
  intro t
  simp only [standard, t.read?_text]

end Conventions

/-! ### Going on -/

/-- **The command goes on from its own answers.**  A time it prints is the previous time of itself.
A canonical text it prints can be given back, also without the two dashes: it is printed as its own
canonical text, and has the next time of the expression or none if the expression has none. -/
theorem command_goes_on_from_answers {c : Conventions} (hargs : c.ReadsArguments)
    (htimes : c.ReadsBack) {e : String} {args : List String} (h : NamesExpression e args)
    (T : String) :
    (∀ now N, c.command now (("--from=" ++ T) :: args) = .answer N →
      c.Prints ("-p" :: ("--from=" ++ N) :: args) N ∧
      ∃ C, c.Prints ("--canonical" :: args) C ∧ NamesExpression C [C] ∧
        ∀ argsC, NamesExpression C argsC →
          c.Prints ("--canonical" :: argsC) C ∧ c.Prints (("--from=" ++ T) :: argsC) N) ∧
    ∀ now source,
      c.command now (("--from=" ++ T) :: args) = .refusal (.schedule (.noValidTime source)) →
      ∃ C, c.Prints ("--canonical" :: args) C ∧ NamesExpression C [C] ∧
        ∀ argsC, NamesExpression C argsC →
          c.Prints ("--canonical" :: argsC) C ∧ c.FindsNoTime (("--from=" ++ T) :: argsC) C := by
  constructor
  · intro now N hnext
    refine ⟨Conventions.prints_previous_of_answer hargs htimes h hnext, ?_⟩
    obtain ⟨gs, t, u, hgs, ht, hu, hN⟩ :=
      (Conventions.command_search_eq_answer_iff hargs h .forward).1 hnext
    obtain ⟨C, hprints, hplain, hC, hagain⟩ := Conventions.exists_prints_canonical hargs h hgs
    refine ⟨C, hprints, hplain, fun argsC hargsC => ⟨hagain argsC hargsC, fun now => ?_⟩⟩
    have huC := Conventions.search_of_source e C gs .forward t
    rw [hu] at huC
    exact (Conventions.command_search_eq_answer_iff hargs hargsC .forward).2
      ⟨gs, t, u, hC, ht, huC, hN⟩
  · intro now source hnone
    obtain ⟨gs, t, hgs, ht, hu⟩ :=
      (Conventions.command_search_eq_noValidTime_iff hargs h .forward).1 hnone
    obtain ⟨C, hprints, hplain, hC, hagain⟩ := Conventions.exists_prints_canonical hargs h hgs
    refine ⟨C, hprints, hplain, fun argsC hargsC => ⟨hagain argsC hargsC, fun now => ?_⟩⟩
    have huC := Conventions.search_of_source e C gs .forward t
    rw [hu] at huC
    exact (Conventions.command_search_eq_noValidTime_iff hargs hargsC .forward).2
      ⟨gs, t, hC, ht, huC⟩

/-- A leap day below the year zero, found from the year before it and not from the year after. -/
theorem command_goes_on_from_leap_day :
    let c := Conventions.standard
    let e := "DATE( 2/29 )"
    let T := "-000005-06-01 12:00"
    let N := "-000004-02-29T00:00:00"
    let late := "-000003-03-01"
    (c.ReadsArguments ∧ c.ReadsBack ∧ NamesExpression e [e]) ∧
    (c.Prints ["--from=" ++ T, e] N ∧ c.FindsNoTime ["--from=" ++ late, e] e) ∧
    (c.Prints ["-p", "--from=" ++ N, e] N ∧
      ∃ C, c.Prints ["--canonical", e] C ∧ NamesExpression C [C] ∧
        ∀ argsC, NamesExpression C argsC →
          c.Prints ("--canonical" :: argsC) C ∧ c.Prints (("--from=" ++ T) :: argsC) N) ∧
    ∃ C, c.Prints ["--canonical", e] C ∧ NamesExpression C [C] ∧
      ∀ argsC, NamesExpression C argsC →
        c.Prints ("--canonical" :: argsC) C ∧ c.FindsNoTime (("--from=" ++ late) :: argsC) C := by
  intro c e T N late
  let zero : Rules Int := { included := [Range.single 0] }
  let leapDay : Group :=
    { dates.included := [Range.single (.yearless 2 29)], hours := zero, minutes := zero,
      seconds := zero }
  let now : Instant := Instant.atSecond ⟨-5, 6, 1, by decide⟩ ⟨12, 0, 0⟩
  let found : Instant := Instant.atSecond ⟨-4, 2, 29, by decide⟩ ⟨0, 0, 0⟩
  have hargs : c.ReadsArguments := Conventions.readsArguments_standard
  have htimes : c.ReadsBack := Conventions.readsBack_standard
  have h : NamesExpression e [e] := .plain (by decide)
  have hgs : groupsOf e = .ok [leapDay] := by decide +kernel
  have hnext : c.Prints ["--from=" ++ T, e] N := fun _ =>
    (Conventions.command_search_eq_answer_iff hargs h .forward).2
      ⟨[leapDay], now, found, hgs, by decide +kernel, by decide +kernel, by decide +kernel⟩
  have hnone : c.FindsNoTime ["--from=" ++ late, e] e := fun _ =>
    (Conventions.command_search_eq_noValidTime_iff hargs h .forward).2
      ⟨[leapDay], Instant.atSecond ⟨-3, 3, 1, by decide⟩ ⟨0, 0, 0⟩, hgs, by decide +kernel,
        by decide +kernel⟩
  exact ⟨⟨hargs, htimes, h⟩, ⟨hnext, hnone⟩,
    (command_goes_on_from_answers hargs htimes h T).1 now N (hnext now),
    (command_goes_on_from_answers hargs htimes h late).2 now e (hnone now)⟩

end Timetable

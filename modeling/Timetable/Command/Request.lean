/-
**What the command is asked for, and its answers.**

The command takes one schedule and tells its next time after a reference, or with an option its last
time up to one.  It can instead check the schedule, show the groups it means, or write it in its
canonical form; of several of these the first in that order is done.  The schedule is read before
the reference.

How a list of arguments becomes a request, and how times are read and written, is left to
conventions that the command is given.  It relies on little of them: that options and an expression
behind them are understood, and that a time it has written can be read again.

Main definitions:

* `Request` — what the arguments ask for;
* `Refusal`, `Outcome` — the ways the command can end;
* `Conventions` — **how arguments are read, and how times are read and written**;
* `Conventions.answerText` — answering a request;
* `Conventions.command` — **arguments to outcome**, the current time being given;
* `AsksFrom` — the arguments that every reader of them understands;
* `Conventions.ReadsArguments`, `Conventions.ReadsBack` — what the command relies on.
-/

import Timetable.Calendar.Instant
import Timetable.Rule.Record
import Timetable.Schedule

set_option relaxedAutoImplicit false
set_option autoImplicit false

namespace Timetable

/-! ### Requests -/

/-- The options that are switched on by being named. -/
inductive Switch
  | previous
  | json
  | check
  | parse
  | canonical
  deriving DecidableEq

namespace Switch

/-- All switches. -/
def all : List Switch := [previous, json, check, parse, canonical]

/-- The arguments that name a switch. -/
def names : Switch → List String
  | previous => ["--previous", "-p"]
  | json => ["--json"]
  | check => ["--check"]
  | parse => ["--parse"]
  | canonical => ["--canonical"]

end Switch

/-- What the arguments ask for. -/
structure Request where
  expression : Option String := none
  reference : Option String := none
  previous : Bool := false
  json : Bool := false
  check : Bool := false
  parse : Bool := false
  canonical : Bool := false
  deriving DecidableEq

namespace Request

/-- The request has the switch on. -/
def has (r : Request) : Switch → Bool
  | .previous => r.previous
  | .json => r.json
  | .check => r.check
  | .parse => r.parse
  | .canonical => r.canonical

/-- The request with one more switch on. -/
def setOn (r : Request) : Switch → Request
  | .previous => { r with previous := true }
  | .json => { r with json := true }
  | .check => { r with check := true }
  | .parse => { r with parse := true }
  | .canonical => { r with canonical := true }

end Request

/-! ### Outcomes -/

/-- Why the command does not do what it is asked for. -/
inductive Refusal
  /-- The arguments are not those of the command; these are the words for it. -/
  | badArguments (words : String)
  /-- There is no expression among the arguments. -/
  | noExpression
  /-- The reference is not a time, for this reason. -/
  | badReference (reason : String)
  /-- The schedule is none, or has no time to tell. -/
  | schedule (error : ScheduleError)
  deriving DecidableEq

/-- The exit code of a refusal: 2 for arguments, 1 for what they say. -/
def Refusal.code : Refusal → Nat
  | badArguments _ | noExpression => 2
  | badReference _ | schedule _ => 1

/-- The words of a refusal. -/
def Refusal.message : Refusal → String
  | badArguments words => words
  | noExpression => "error: no expression provided"
  | badReference reason => "error: invalid --from datetime: " ++ reason
  | schedule error => error.rich

/-- How the command ends: with a line or more on the standard output, or with a refusal. -/
inductive Outcome
  | answer (text : String)
  | refusal (why : Refusal)
  deriving DecidableEq

/-! ### Answers -/

/-- **How arguments are read, and how times are read and written.** -/
structure Conventions where
  /-- What the arguments ask for, or how the command ends without being asked for anything. -/
  readArguments : List String → Except Outcome Request
  /-- The time a text names, or why it names none. -/
  readTime : String → Except String Instant
  /-- A time as text. -/
  writeTime : Instant → String

/-- A time and what was asked for as one JSON record, with its fields in order of their names. -/
def answerRecord (source reference found direction : String) : Json :=
  .object [("expression", .string source), (direction, .string found),
    ("reference", .string reference)]

/-- A schedule and its groups as a JSON record. -/
def Schedule.json (s : Schedule) : Json :=
  .object [("source", .string s.source), ("groups", .array (s.groups.map Group.json))]

namespace Conventions

/-- The reference of a request: the time given, or else the current one. -/
def referenceTime (c : Conventions) (r : Request) (now : Instant) : Except Refusal Instant :=
  match r.reference with
  | none => .ok now
  | some text => (c.readTime text).mapError .badReference

/-- The time of the schedule that a request asks for, as text. -/
def timeText (c : Conventions) (r : Request) (s : Schedule) (now : Instant) :
    Except Refusal String := do
  let reference ← c.referenceTime r now
  let (direction, result) :=
    if r.previous then ("previous", s.previous reference) else ("next", s.next reference)
  match result with
  | .error error => .error (.schedule error)
  | .ok found =>
    let text := c.writeTime found
    if r.json then
      .ok (answerRecord s.source (c.writeTime reference) text direction).compact
    else .ok text

/-- What a request is answered with.  The schedule is read before the reference. -/
def answerText (c : Conventions) (r : Request) (now : Instant) : Except Refusal String :=
  match r.expression with
  | none => .error .noExpression
  | some text =>
    match Schedule.ofText text with
    | .error error => .error (.schedule error)
    | .ok s =>
      if r.check then .ok "✓ valid"
      else if r.parse then .ok s.json.pretty
      else if r.canonical then .ok s.canonical
      else c.timeText r s now

/-- The outcome of a request. -/
def outcome (c : Conventions) (r : Request) (now : Instant) : Outcome :=
  match c.answerText r now with
  | .ok text => .answer text
  | .error why => .refusal why

/-- **What the command does with its arguments** at a given time. -/
def command (c : Conventions) (now : Instant) (args : List String) : Outcome :=
  match c.readArguments args with
  | .ok r => c.outcome r now
  | .error outcome => outcome

end Conventions

/-! ### What the command relies on -/

/-- The arguments hand the expression over: it does not start like an option or stands behind the
two dashes. -/
inductive NamesExpression (text : String) : List String → Prop
  | plain (h : text.toList.head? ≠ some '-') : NamesExpression text [text]
  | behindDashes : NamesExpression text ["--", text]

/-- **The arguments turn one request into another.**  Every argument but the last names an option
that the request does not have yet, or gives the reference behind an equals sign, and the last hands
an expression over. -/
inductive AsksFrom : Request → List String → Request → Prop
  | expression {r : Request} {text : String} {args : List String} (hr : r.expression = none)
      (h : NamesExpression text args) : AsksFrom r args { r with expression := some text }
  | reference {r r' : Request} {args : List String} (text : String) (hr : r.reference = none)
      (h : AsksFrom { r with reference := some text } args r') :
      AsksFrom r (("--from=" ++ text) :: args) r'
  | switch {r r' : Request} {args : List String} {name : String} (s : Switch)
      (hname : name ∈ s.names) (hr : r.has s = false) (h : AsksFrom (r.setOn s) args r') :
      AsksFrom r (name :: args) r'

namespace Conventions

/-- Arguments that name options, each of them once, and an expression behind them are understood. -/
def ReadsArguments (c : Conventions) : Prop :=
  ∀ args r, AsksFrom {} args r → c.readArguments args = .ok r

/-- A time that was written is read again as the same time. -/
def ReadsBack (c : Conventions) : Prop :=
  ∀ t, c.readTime (c.writeTime t) = .ok t

end Conventions

end Timetable

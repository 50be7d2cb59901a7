/-
**Reading the arguments of the command.**

Options are read from left to right and the first problem ends the reading; asking for the version
ends it too.  Single letters may be run together behind one dash, and the value of an option stands
behind an equals sign or is the next argument, if that does not look like an option.  This is the
reading with which the program is run.  What is shown of the command holds of any other one that
understands options and an expression behind them.

Main definitions:

* `Shape` — what an argument looks like;
* `Problem` — what can be wrong with the arguments;
* `Request.read` — **reading the arguments**.
-/

import Timetable.Command.Request

set_option relaxedAutoImplicit false
set_option autoImplicit false

namespace Timetable

/-- What an argument looks like. -/
inductive Shape
  /-- It is no option; a lone dash is none. -/
  | plain
  /-- It is the two dashes after which nothing is an option. -/
  | endOfOptions
  /-- It is a dash and the letters of options. -/
  | letters (cs : List Char)
  /-- It is the name of an option with its two dashes, and the value behind an equals sign. -/
  | long (name : String) (value : Option String)
  deriving DecidableEq

/-- The shape of an argument. -/
def Shape.of (arg : String) : Shape :=
  let cs := arg.toList
  match cs with
  | ['-', '-'] => endOfOptions
  | '-' :: '-' :: _ =>
    let name := String.ofList (cs.takeWhile (· ≠ '='))
    match cs.dropWhile (· ≠ '=') with
    | [] => long name none
    | _ :: value => long name (some (String.ofList value))
  | '-' :: c :: rest => letters (c :: rest)
  | _ => plain

/-- What can be wrong with the arguments. -/
inductive Problem
  /-- There is no such option. -/
  | unknownOption (name : String)
  /-- An option is given twice. -/
  | repeatedOption (name : String)
  /-- An option that takes no value is given one. -/
  | valueNotTaken (name : String)
  /-- An option that takes a value is given none. -/
  | valueMissing (name : String)
  /-- A second expression is given. -/
  | secondExpression (text : String)

namespace Problem

/-- The words for a problem with the arguments. -/
def message : Problem → String
  | unknownOption name => "unexpected argument '" ++ name ++ "'"
  | repeatedOption name => "the argument '" ++ name ++ "' cannot be used multiple times"
  | valueNotTaken name => "the argument '" ++ name ++ "' takes no value"
  | valueMissing name => "a value is required for '" ++ name ++ "' but none was supplied"
  | secondExpression text => "unexpected argument '" ++ text ++ "'"

/-- How the command ends with a problem. -/
def outcome (p : Problem) : Outcome :=
  .refusal (.badArguments
    ("error: " ++ p.message ++ "\n\nUsage: schyntax [OPTIONS] [EXPRESSION]"))

end Problem

/-- The name and version of the command. -/
def versionText : String := "schyntax 0.1.0"

namespace Request

/-- The switch of a name with two dashes. -/
def switch? (name : String) : Option Switch := Switch.all.find? fun s => s.names.head? = some name

/-- The request with one more switch on, which it may not have yet. -/
def switchOn (r : Request) (s : Switch) (name : String) : Except Outcome Request :=
  if r.has s then .error (Problem.repeatedOption name).outcome else .ok (r.setOn s)

/-- The request with a reference time. -/
def refer (r : Request) (text : String) : Except Outcome Request :=
  if r.reference.isSome then .error (Problem.repeatedOption "--from").outcome
  else .ok { r with reference := some text }

/-- The request with an expression. -/
def express (r : Request) (text : String) : Except Outcome Request :=
  if r.expression.isSome then .error (Problem.secondExpression text).outcome
  else .ok { r with expression := some text }

/-- The request with the options of a cluster of single letters. -/
def readLetters (r : Request) : List Char → Except Outcome Request
  | [] => .ok r
  | 'p' :: rest => do (← r.switchOn .previous "-p").readLetters rest
  | 'V' :: _ => .error (.answer versionText)
  | c :: _ => .error (Problem.unknownOption (String.ofList ['-', c])).outcome

/-- The request with the long option of a name; `value` is what its argument gives behind an equals
sign. -/
def readSwitch (r : Request) (name : String) (value : Option String) : Except Outcome Request :=
  match switch? name, value with
  | none, _ => .error (Problem.unknownOption name).outcome
  | some _, some _ => .error (Problem.valueNotTaken name).outcome
  | some s, none => r.switchOn s name

/-- The request with all that the arguments ask for added. -/
def readAll (r : Request) : List String → Except Outcome Request
  | [] => .ok r
  | arg :: rest =>
    match Shape.of arg with
    | .plain => do (← r.express arg).readAll rest
    | .endOfOptions => rest.foldlM express r
    | .letters cs => do (← r.readLetters cs).readAll rest
    | .long name value =>
      if name = "--version" then
        match value with
        | none => .error (.answer versionText)
        | some _ => .error (Problem.valueNotTaken name).outcome
      else if name = "--from" then
        match value, rest with
        | some value, rest => do (← r.refer value).readAll rest
        | none, [] => .error (Problem.valueMissing name).outcome
        | none, value :: rest =>
          if Shape.of value = .plain then do (← r.refer value).readAll rest
          else .error (Problem.valueMissing name).outcome
      else do (← r.readSwitch name value).readAll rest

/-- **What the arguments ask for**, or how the command ends without being asked for anything. -/
def read (args : List String) : Except Outcome Request := readAll {} args

end Request

end Timetable

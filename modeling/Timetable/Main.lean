/-
**The program.**

The program hands its arguments and the current time to `Timetable.command` and carries out the
outcome: an answer goes to the standard output, the words of a refusal to the standard error, and
the exit code is that of the outcome.
-/

import Std.Time.DateTime.Timestamp
import Timetable.Command

set_option relaxedAutoImplicit false
set_option autoImplicit false

namespace Timetable

/-- The current time in UTC. -/
def currentTime : IO Instant := do
  let now ← Std.Time.Timestamp.now
  let nanoseconds := now.toNanosecondsSinceUnixEpoch.val.toNat
  let nano := ⟨nanoseconds % 1000000000, Nat.mod_lt _ (by decide)⟩
  match Instant.ofUnixSeconds? (nanoseconds / 1000000000) nano with
  | some t => return t
  | none => throw (IO.userError "the current time is outside the calendar")

end Timetable

open Timetable in
/-- Runs the command and carries out its outcome. -/
def main (args : List String) : IO UInt32 := do
  match command (← currentTime) args with
  | .answer text =>
    IO.println text
    return 0
  | .refusal why =>
    IO.eprintln why.message
    return UInt32.ofNat why.code

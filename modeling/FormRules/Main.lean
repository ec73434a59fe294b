import FormRules.CommandLine.Run
import Std.Time.DateTime.Timestamp

/-!
The program: it reads the documents that a command names, carries the command out, and prints what
came of it. It reaches no other party, so remote rules fail.
-/

namespace FormRules

/-- What stands under a path of the machine. -/
def stored? (path : String) : IO (Option Stored) := do
  try
    return some (.text (← IO.FS.readFile path))
  catch
    | .noFileOrDirectory _ _ _ => return none
    | .inappropriateType _ _ _ => return some .directory
    | fault => throw fault

/-- The documents that a command reads. -/
def filesOf (command : Command) : IO Files := do
  let found ← command.paths.mapM fun path => do
    return (← stored? path).map fun stored => (Files.normal path, stored)
  return found.filterMap id

/-- The days of the calendar before the year 1970. -/
def daysBeforeEpoch : Int := Calendar.daysBeforeYear 1970

/-- The present moment at the zero meridian. -/
def currentMoment : IO Moment := do
  let timestamp ← Std.Time.Timestamp.now
  let micros := timestamp.toNanosecondsSinceUnixEpoch.val / 1000
  match Moment.ofInstant? (daysBeforeEpoch * dayMicros + micros) with
  | some moment => return moment
  | none => throw (.userError "the clock is out of range")

end FormRules

open FormRules in
def main (arguments : List String) : IO UInt32 := do
  let files ← match Command.ofArguments arguments with
    | .ok command => filesOf command
    | .error _ => pure []
  match Command.runWith files (← currentMoment) Rule.Transport.offline arguments with
  | .ok printed =>
    IO.print printed.output
    IO.eprint printed.errors
    return printed.code.toUInt32
  | .error fault =>
    IO.eprintln fault.message
    return 1

import FormRules.Moment.Basic
import FormRules.Text.Blank
import FormRules.Text.Digit
import FormRules.Text.Quoted

/-!
Clock times of hours and minutes, such as the ends of a daily time range. A range whose end is before
its start runs over midnight.
-/

namespace FormRules

open Text

/-- Why a text is no clock time. -/
inductive ClockFault where
  | mismatch (text : String)
  | leftover (text : String)

def ClockFault.message : ClockFault → String
  | .mismatch text => s!"time data {quoted text} does not match format '%H:%M'"
  | .leftover text => s!"unconverted data remains: {text}"

namespace Clock

/-- Two digits of which the first is at most `top`, or one digit, and what follows. -/
def field? (top : Nat) (chars : List Char) : Option (Nat × List Char) :=
  match chars with
  | [] => none
  | first :: rest =>
    let single := (decimalValue? first).map (·, rest)
    match rest with
    | [] => single
    | second :: tail =>
      if first.isDigit && first.toNat - 48 ≤ top then
        match decimalValue? second with
        | some low => some ((first.toNat - 48) * 10 + low, tail)
        | none => single
      else single

/-- An hour and the colon after it, and what follows. -/
def hour? (chars : List Char) : Option (Nat × List Char) :=
  let late :=
    match chars with
    | '2' :: c :: ':' :: rest => if '0' ≤ c && c ≤ '3' then some (20 + (c.toNat - 48), rest) else none
    | _ => none
  match late with
  | some found => some found
  | none =>
    match field? 1 chars with
    | some (hour, ':' :: rest) => some (hour, rest)
    | _ => none

/-- The minutes since midnight that a text shows. -/
def ofText (text : String) : Except ClockFault Nat :=
  match hour? text.toList with
  | none => .error (.mismatch text)
  | some (hour, rest) =>
    match field? 5 rest with
    | none => .error (.mismatch text)
    | some (minute, []) => .ok (hour * 60 + minute)
    | some (_, left) => .error (.leftover (String.ofList left))

/-- The texts before and after the first hyphen. -/
def splitRange (text : String) : String × String :=
  let chars := text.toList
  let before := chars.takeWhile (· != '-')
  (String.ofList before, String.ofList (chars.drop (before.length + 1)))

/-- Whether a minute lies between two others, both included. -/
def between (start stop current : Nat) : Bool :=
  if start ≤ stop then start ≤ current && current ≤ stop else start ≤ current || current ≤ stop

/-- Whether a time of day lies in a range such as `22:00-06:00`. -/
def inRange (time : DayTime) (range : String) : Except ClockFault Bool := do
  let (first, second) := splitRange range
  let start ← ofText (trim first)
  let stop ← ofText (trim second)
  return between start stop (time.hour * 60 + time.minute)

end Clock

end FormRules

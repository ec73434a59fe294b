import FormRules.Fault
import FormRules.Number.Rounding

/-!
Spans of time that a value gives in milliseconds, counted in microseconds. A fraction of a microsecond is
rounded, a tie going to the even neighbour.
-/

namespace FormRules

open Number (Binary64 perOne nearestEven)

/-- The microseconds in a finite number of milliseconds. -/
def Number.Binary64.millisToMicros? (x : Binary64) : Option Int :=
  match x, x.truncate? with
  | .finite negative magnitude, some whole =>
    let part := Binary64.ofUnits negative (magnitude.units % perOne) 1
    match part.mul (.ofRatio false 1000 1) with
    | .finite negative product =>
      let units := whole * 1000 * perOne + Binary64.signed negative product
      let rounded : Int := nearestEven units.natAbs perOne
      some (if units < 0 then -rounded else rounded)
    | _ => none
  | _, _ => none

/-- The longest span, in days. -/
def longestSpan : Int := 999999999

/-- A span that is not too long. -/
def checkSpan (micros : Int) : Except Fault Int :=
  let days := Int.fdiv micros dayMicros
  if 2147483648 ≤ days || days < -2147483648 then .error (.overflow .spanUnits)
  else if longestSpan < days || days < -longestSpan then .error (.overflow (.spanDays days))
  else .ok micros

/-- The span of a value in milliseconds, in microseconds. -/
def Value.spanMicros (value : Value) : Except Fault Int :=
  match value with
  | .bool b => .ok (if b then 1000 else 0)
  | .int n => checkSpan (n * 1000)
  | .float x =>
    match x.millisToMicros? with
    | some micros => checkSpan micros
    | none => .error (if x.isNaN then .value .noWholePart else .overflow .whole)
  | value => .error (.type (.spanUnit value.kind))

namespace Moment

/-- Microseconds from the start of the calendar to its end. -/
def calendarMicros : Int := 3652059 * dayMicros

/-- The instant that lies a span before a moment, if the clock of the moment can show it. -/
def before? (moment : Moment) (micros : Int) : Option Int :=
  let shown := moment.shown - micros
  if 0 ≤ shown && shown < calendarMicros then some (moment.instant - micros) else none

end Moment

end FormRules

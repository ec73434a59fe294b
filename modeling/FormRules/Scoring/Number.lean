import FormRules.Number.Reader
import FormRules.Value.Arithmetic

/-!
Numbers in scoring: how an answer is read as a number, and how points are rounded.
-/

namespace FormRules.Scoring

/-- The number that an answer shows; what is no number has none. -/
def readNumber (answer : Value) : Except Fault (Option Number.Binary64) :=
  match answer with
  | .text s =>
    .ok (if Text.allBlank s then none else (Number.float? (Text.trim s)).filter fun x => !x.isNaN)
  | answer =>
    match answer.number? with
    | none => .ok none
    | some n => do
      let x ← n.toFloat
      return if x.isNaN then none else some x

/-- Whether a value is a number, a truth value being none. -/
def isNumber : Value → Bool
  | .number _ => true
  | _ => false

/-- Ten to a power, a whole number if the power is not negative. -/
def powerOfTen (digits : Int) : Number :=
  if 0 ≤ digits then .int (Nat.pow 10 digits.toNat)
  else .float (.ofRatio false 1 (Nat.pow 10 (-digits).toNat))

def half : Number := .float (.ofRatio false 1 2)

/-- A value rounded to a count of decimal places, a half going up. -/
def roundHalfUp (value : Value) (digits : Int) : Except Fault Value := do
  let scale := Value.number (powerOfTen digits)
  let scaled ← (← value.mul scale).add (.number half)
  match scaled.number? with
  | some n => (Value.int (← n.floor)).div scale
  | none => scaled.div scale

/-- Zero, or a value that is above zero. -/
def atLeastZero (value : Value) : Except Fault Value := do
  if ← value.isPositive then return value else return .int 0

end FormRules.Scoring

import FormRules.Number.Decimal
import FormRules.Scoring.Score

/-!
Scoring by a number within a tolerance. An answer that is no number earns nothing and loses nothing.
-/

namespace FormRules.Scoring

/-- The message for a number that is off the mark. -/
def offMark (rule : Fields) (expected : Number.Binary64) (tolerance : Value) : Except Fault Value := do
  let range := if ← tolerance.isPositive then s!" (±{tolerance.shown} tolerance)" else ""
  return messageOr rule s!"Incorrect. Correct answer: {expected.briefText}{range}"

def numeric (answer : Value) (rule : Fields) : Except Fault Score := do
  let expected := Fields.get rule "correctAnswer"
  let stakes := Stakes.ofRule rule
  let tolerance := setting rule "tolerance" (.int 0)
  let given? ← readNumber answer
  let mark? ← readNumber expected
  let score (correct : Bool) (earned message : Value) : Score :=
    { correct, points := stakes.points, penalty := stakes.penalty, earned, message, answer, expected }
  match given?, mark? with
  | some given, some mark =>
    if ← (Value.float (given.sub mark).abs).compare .lessEqual tolerance then
      return score true stakes.points .null
    else
      let earned ← stakes.lost
      return score false earned (← offMark rule mark tolerance)
  | _, _ => return score false (.int 0) (.text "Invalid number")

end FormRules.Scoring

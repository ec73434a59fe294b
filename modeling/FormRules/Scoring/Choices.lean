import FormRules.Json.Writer
import FormRules.Scoring.Score

/-!
Scoring a choice of several answers, whatever their order. Answers are the same when their canonical
texts are; a part of the right ones may earn a part of the points.
-/

namespace FormRules.Scoring

/-- The canonical texts of some answers, sorted. -/
def sortedTexts (answers : List Value) : Except Fault (List String) := do
  let texts ← answers.mapM (Json.canonical true)
  return texts.mergeSort fun first second => decide (first ≤ second)

/-- The answers chosen; one that is no list counts as a choice of one. -/
def chosen (answer : Value) : List Value :=
  match answer with
  | .list items => items
  | answer => [answer]

/-- What a part of the right answers earns: a share of the points for each right one, less a share of
the penalty for each wrong one, and never less than nothing. -/
def partialPoints (stakes : Stakes) (right wrong total : Nat) : Except Fault Value := do
  let gained ← (← stakes.points.mul (.int right)).div (.int total)
  let lost ← (← stakes.penalty.mul (.int wrong)).div (.int total)
  atLeastZero (← gained.sub lost)

def joined (answers : List Value) : String := String.intercalate ", " (answers.map Value.shown)

def choices (answer : Value) (rule : Fields) : Except Fault Score := do
  let expected := Fields.get rule "correctAnswer"
  let stakes := Stakes.ofRule rule
  let score (correct : Bool) (earned message : Value) : Score :=
    { correct, points := stakes.points, penalty := stakes.penalty, earned, message, answer, expected }
  match expected with
  | .list right =>
    let given ← sortedTexts (chosen answer)
    let wanted ← sortedTexts right
    if given == wanted then return score true (← roundHalfUp stakes.points 2) .null
    else if (setting rule "partialCredit" (.bool false)).truthy && !wanted.isEmpty then
      let hits := given.countP wanted.contains
      let earned ← partialPoints stakes hits (given.length - hits) wanted.length
      let message :=
        s!"Partially correct ({hits}/{wanted.length}). Correct answer: {joined right}"
      return score false (← roundHalfUp earned 2) (.text message)
    else
      let earned ← stakes.lost
      let message := messageOr rule s!"Incorrect. Correct answer: {joined right}"
      return score false (← roundHalfUp earned 2) message
  | _ =>
    return score false (.int 0) (.text "Invalid configuration: correctAnswer must be a list")

end FormRules.Scoring

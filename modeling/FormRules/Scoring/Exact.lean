import FormRules.Scoring.Score

/-!
Scoring by one right answer. A number is compared as a number, anything else as text without regard to
case and surrounding blanks.
-/

namespace FormRules.Scoring

/-- Text as it is compared. -/
def plainText (answer : Value) : String := Text.lower (Text.trim (answerText answer))

/-- Whether an answer is the expected one. -/
def isExact (answer expected : Value) : Except Fault Bool :=
  match expected with
  | .number n => do
    match ← readNumber answer with
    | some x => return (Number.float x).equal n
    | none => return false
  | expected => .ok (plainText answer == plainText expected)

def exact (answer : Value) (rule : Fields) : Except Fault Score := do
  let expected := Fields.get rule "correctAnswer"
  let stakes := Stakes.ofRule rule
  let correct ← isExact answer expected
  let earned ← if correct then pure stakes.points else stakes.lost
  let message :=
    if correct then .null else messageOr rule s!"Incorrect. Correct answer: {expected.shown}"
  return { correct, points := stakes.points, penalty := stakes.penalty, earned, message, answer, expected }

end FormRules.Scoring

import FormRules.Scoring.Number
import FormRules.Text.Sigma
import FormRules.Value.Access
import FormRules.Value.Text

/-!
The score of one answer, and what every way of scoring has in common.
-/

namespace FormRules.Scoring

structure Score where
  field : Value := .null
  correct : Bool
  points : Value
  penalty : Value
  earned : Value
  message : Value
  answer : Value
  expected : Value

def Score.toValue (score : Score) : Value := .ofFields [
  ("field_name", score.field),
  ("correct", .bool score.correct),
  ("points", score.points),
  ("penalty", score.penalty),
  ("earned_points", score.earned),
  ("message", score.message),
  ("user_answer", score.answer),
  ("correct_answer", score.expected)]

/-- A field of a rule, or another value where the rule does not have it. -/
def setting (rule : Fields) (name : String) (absent : Value) : Value :=
  (Keyed.find? rule (.text name)).getD absent

/-- What an answer is worth: the points of a right one and the penalty of a wrong one. -/
structure Stakes where
  points : Value
  penalty : Value

def Stakes.ofRule (rule : Fields) : Stakes :=
  ⟨setting rule "points" (.int 1), setting rule "penalty" (.int 0)⟩

/-- What a wrong answer earns: the penalty is taken off, if there is one. -/
def Stakes.lost (stakes : Stakes) : Except Fault Value := do
  if ← stakes.penalty.isPositive then stakes.penalty.neg else return .int 0

/-- The message of a rule, or one of the library's own. -/
def messageOr (rule : Fields) (own : String) : Value := (Fields.get rule "message").orElse (.text own)

/-- An answer as text, a missing one being empty. -/
def answerText (answer : Value) : String := if answer.isNull then "" else answer.shown

end FormRules.Scoring

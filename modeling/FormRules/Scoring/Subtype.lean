import FormRules.Scoring.Choices
import FormRules.Scoring.Exact
import FormRules.Scoring.Keywords
import FormRules.Scoring.Numeric

/-!
The ways of scoring by the names that rules give them.
-/

namespace FormRules.Scoring

inductive Subtype where
  | exact
  | choices
  | numeric
  | keywords
  | custom
deriving DecidableEq, Repr

namespace Subtype

def ofName? : String → Option Subtype
  | "exactMatch" => some .exact
  | "arrayMatch" => some .choices
  | "numericMatch" => some .numeric
  | "keywordMatch" => some .keywords
  | "custom" => some .custom
  | _ => none

/-- The way of scoring that a rule asks for; an unknown one is taken for a single right answer. -/
def ofValue (value : Value) : Except Fault Subtype := do
  match ← value.asKey with
  | .text name => return (ofName? name).getD .exact
  | _ => return .exact

end Subtype

/-- The score of an answer; a custom way of scoring gives none. -/
def score? (subtype : Subtype) (answer : Value) (rule : Fields) : Except Fault (Option Score) :=
  match subtype with
  | .exact => (exact answer rule).map some
  | .choices => (choices answer rule).map some
  | .numeric => (numeric answer rule).map some
  | .keywords => (keywords answer rule).map some
  | .custom => .ok none

end FormRules.Scoring

import FormRules.Report.Basic
import FormRules.Rule.Backend
import FormRules.Scoring.Subtype

/-!
The progress of a pass over a form: what the backend carries along, the scores so far, and the report of
the field at hand. A fault ends a step, but what was done before it stays done. A backend that is at
fault has judged the value to be invalid.
-/

namespace FormRules

structure Progress (σ : Type) where
  backend : σ
  scores : Keyed Scoring.Score := []
  report : Report := Report.counting

/-- Steps of a pass. -/
abbrev Pass (σ : Type) := ExceptT Fault (StateM (Progress σ))

/-- What the rules of a field are checked against. -/
structure Subject where
  path : Value
  value : Value
  isRequired : Bool
  context : Context

/-- What is to be done about a rule. -/
inductive Stance where
  | skipped
  | scored
  | judged
deriving DecidableEq, Repr

namespace Subject

/-- A rule is skipped if its condition does not hold, and without one if it asks for a value where none
is required. -/
def stance (subject : Subject) (rule : Fields) : Stance :=
  let condition := Fields.get rule "when"
  match RuleKind.ofValue? (Fields.get rule "type") with
  | kind? =>
    if !Condition.admits subject.context.source condition then .skipped
    else if kind? == some .computed then .scored
    else if kind? == some .required && !condition.truthy && !subject.isRequired then .skipped
    else .judged

end Subject

/-- The reason of a failure. -/
def Outcome.reason (outcome : Outcome) (rule : Fields) : Value :=
  outcome.error.orElse ((Fields.get rule "message").orElse (.text "Validation failed"))

namespace Pass

/-- The outcome of a rule, a fault being a failure. -/
def outcomeOf (rule : Fields) : Except Fault Outcome → Outcome
  | .ok outcome => outcome
  | .error fault => Rule.failureSaying fault.message rule "Validation failed"

def judge (backend : Backend σ) (subject : Subject) (rule : Fields) : Pass σ Outcome := fun progress =>
  let (result, state) := backend subject.value rule subject.context progress.backend
  (.ok (outcomeOf rule result), { progress with backend := state })

/-- The score of a value under the name of a field. -/
def scoreOf? (field value : Value) (rule : Fields) : Except Fault (Option Scoring.Score) := do
  let subtype ← Scoring.Subtype.ofValue (Fields.get rule "subtype")
  return (← Scoring.score? subtype value rule).map ({ · with field })

def isStored (rule : Fields) : Bool :=
  match Fields.get rule "storeResult" with
  | .bool false => false
  | _ => true

/-- Scores with the one that a rule gives to a value; a field has one score, the latest. -/
def withScore (scores : Keyed Scoring.Score) (field value : Value) (rule : Fields) :
    Except Fault (Keyed Scoring.Score) := do
  match ← scoreOf? field value rule with
  | some score => if isStored rule then return Keyed.insert scores (← field.asKey) score else return scores
  | none => return scores

def score (subject : Subject) (rule : Fields) : Pass σ Unit := do
  let progress ← get
  let scores ← withScore progress.scores subject.path subject.value rule
  set { progress with scores }

end Pass

end FormRules

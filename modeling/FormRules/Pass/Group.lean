import FormRules.Pass.Progress

/-!
Groups of rules. The failures of the children are counted, and the operator says how many make the group
fail. A group that stops at the first failure leaves the rest of its children alone; a nested group that
fails then makes it fail whatever the operator.
-/

namespace FormRules

/-- Whether a group of some children fails, given how many of them have failed. -/
def GroupOperator.fails (operator : GroupOperator) (failed children : Nat) : Bool :=
  match operator with
  | .and => failed != 0
  | .or => failed == children
  | .not => failed == 0

namespace Pass

def stopsEarly (fields : Fields) : Bool := (Fields.get fields "stopOnFirstError").truthy

/-- The message of a group that has failed, from those of its children where it has none. -/
def groupMessage (fields : Fields) (reasons : List Value) : Except Fault Value :=
  let own := Group.message fields
  if own.truthy then .ok own else (Value.joinTexts reasons).map .text

/-- What a group that has failed counts as for the group that it is in. -/
def nestedReason (fields : Fields) : Value :=
  (Group.message fields).orElse (.text "Nested group validation failed")

/-- The failures among the children of a group, and whether a nested group has ended it. -/
structure Findings where
  reasons : List Value := []
  isCut : Bool := false

def Findings.add (reason : Value) (findings : Findings) : Findings :=
  { findings with reasons := reason :: findings.reasons }

/-- What the findings make of a group: its message if it fails. -/
def verdict? (operator : GroupOperator) (fields : Fields) (children : Nat) (findings : Findings) :
    Except Fault (Option Value) := do
  if findings.isCut then return some (← groupMessage fields findings.reasons)
  else if operator.fails findings.reasons.length children then
    return some ((← groupMessage fields findings.reasons).orElse (.text "Validation group failed"))
  else return none

/-- The failure of a child of a group. -/
structure ChildFailure where
  reason : Value
  isNested : Bool

/-- The failure of a rule in a group, if it fails. -/
def failure? (backend : Backend σ) (subject : Subject) (rule : Fields) :
    Pass σ (Option ChildFailure) := do
  match subject.stance rule with
  | .skipped => return none
  | .scored =>
    score subject rule
    return none
  | .judged =>
    let outcome ← judge backend subject rule
    return if outcome.valid then none else some ⟨outcome.reason rule, false⟩

mutual

def examine (backend : Backend σ) (subject : Subject) : RuleNode → Pass σ (Option ChildFailure)
  | .rule rule => failure? backend subject rule
  | .group operator fields children => do
    let findings ← collect backend subject (stopsEarly fields) children
    let verdict? ← verdict? operator fields children.length findings
    return verdict?.map fun _ => ⟨nestedReason fields, true⟩
  | .other => return none
  | .faulty fault => throw fault

def collect (backend : Backend σ) (subject : Subject) (stops : Bool) : List RuleNode → Pass σ Findings
  | [] => return {}
  | child :: rest => do
    match ← examine backend subject child with
    | none => collect backend subject stops rest
    | some failure =>
      if stops then return { reasons := [failure.reason], isCut := failure.isNested }
      else return (← collect backend subject stops rest).add failure.reason

end

/-- The message of a group, if it fails. -/
def evaluate (backend : Backend σ) (subject : Subject) (operator : GroupOperator) (fields : Fields)
    (children : List RuleNode) : Pass σ (Option Value) := do
  let findings ← collect backend subject (stopsEarly fields) children
  verdict? operator fields children.length findings

end Pass

end FormRules

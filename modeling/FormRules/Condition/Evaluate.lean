import FormRules.Condition.Basic
import FormRules.Path

/-!
Evaluating conditions. Clauses are evaluated in order, and no further than the answer needs.
-/

namespace FormRules

/-- Where the values of fields come from. -/
abbrev Source := Value → Except Fault Value

namespace Source

/-- The values of a document, by dotted path. -/
def document (root : Value) : Source := fun field => do
  let path ← field.asText "split"
  return (← Path.find? root path).getD .null

/-- Values by name alone. -/
def flat (values : Fields) : Source := fun field => do
  let key ← field.asKey
  return (Keyed.find? values key).getD .null

end Source

namespace Condition

mutual

def evaluate (source : Source) : Condition → Except Fault Bool
  | .always => .ok true
  | .all members => evaluateAll source members
  | .any members => evaluateAny source members
  | .negation inner => (evaluate source inner).map not
  | .test field operator operand => do
    let value ← source field
    Compare.holdsBy operator value operand
  | .oneOf field options => do
    let value ← source field
    return Compare.listed options value
  | .equals field expected => do
    let value ← source field
    Compare.looselyEqual value expected

def evaluateAll (source : Source) : List Condition → Except Fault Bool
  | [] => .ok true
  | member :: members => do
    if ← evaluate source member then evaluateAll source members else return false

def evaluateAny (source : Source) : List Condition → Except Fault Bool
  | [] => .ok false
  | member :: members => do
    if ← evaluate source member then return true else evaluateAny source members

end

/-- Whether a rule applies under its condition; one that cannot be evaluated does not stop it. -/
def admits (source : Source) (condition : Value) : Bool :=
  if condition.truthy then
    match evaluate source (ofValue condition) with
    | .ok answer => answer
    | .error _ => true
  else true

end Condition

end FormRules

import FormRules.Condition.Names
import FormRules.Value.Access

/-!
Rules and groups of rules. A group lists its rules beside an operator or under the operator's own name;
what is neither a rule nor a group has no say.
-/

namespace FormRules

inductive RuleKind where
  | required
  | email
  | numeric
  | stringLength
  | arrayLength
  | range
  | pattern
  | compare
  | custom
  | async
  | crossField
  | computed
  | temporal
  | plugin
deriving DecidableEq, Repr

namespace RuleKind

def named : List (String × RuleKind) := [
  ("required", .required), ("email", .email), ("numeric", .numeric),
  ("stringLength", .stringLength), ("arrayLength", .arrayLength), ("range", .range),
  ("pattern", .pattern), ("compare", .compare), ("custom", .custom), ("async", .async),
  ("crossField", .crossField), ("computed", .computed), ("temporal", .temporal),
  ("plugin", .plugin)]

def ofValue? : Value → Option RuleKind
  | .text name => named.lookup name
  | _ => none

end RuleKind

inductive GroupOperator where
  | and
  | or
  | not
deriving DecidableEq, Repr

namespace GroupOperator

def name : GroupOperator → String
  | .and => "and"
  | .or => "or"
  | .not => "not"

def ofName? : String → Option GroupOperator
  | "and" => some .and
  | "or" => some .or
  | "not" => some .not
  | _ => none

/-- The operator that a group spells out, if it does. -/
def spelled? (fields : Fields) : Except Fault (Option GroupOperator) := do
  match ← (Fields.get fields "operator").asKey with
  | .text name => return ofName? name
  | _ => return none

end GroupOperator

namespace Group

/-- The rules that a group lists. -/
def rules (fields : Fields) : List Value :=
  match Fields.get fields "rules", Fields.get fields "or", Fields.get fields "and" with
  | .list items, _, _ => items
  | _, .list items, _ => items
  | _, _, .list items => items
  | _, _, _ =>
    let single := Fields.get fields "not"
    if single.truthy then [single] else []

/-- The operator of a group: the one spelled out, or the one under whose name its rules stand. -/
def operator (fields : Fields) : Except Fault GroupOperator := do
  match ← GroupOperator.spelled? fields with
  | some operator => return operator
  | none =>
    return if Fields.has fields "or" then .or
      else if Fields.has fields "and" then .and
      else if Fields.has fields "not" then .not
      else .and

def message (fields : Fields) : Value :=
  (Fields.get fields "groupMessage").orElse (Fields.get fields "message")

/-- Whether an object is a group: it spells out an operator, or it has no type and names one. -/
def isGroup (fields : Fields) : Except Fault Bool := do
  if (← GroupOperator.spelled? fields).isSome then return true
  else
    return !Fields.has fields "type" &&
      (Fields.has fields "and" || Fields.has fields "or" || Fields.has fields "not")

end Group

/-- Whether an object is a rule, which is tagged by the name of its type. -/
def isRule (fields : Fields) : Bool := (Fields.get fields "type").isText

/-- A member of a list of rules, as far as it can be understood. -/
inductive RuleNode where
  | rule (fields : Fields)
  | group (operator : GroupOperator) (fields : Fields) (children : List RuleNode)
  | other
  | faulty (fault : Fault)

namespace RuleNode

/-- What a field holds: the nodes of a list, or one node. -/
structure Held where
  listed : List RuleNode
  single : RuleNode

def Held.nothing : Held := ⟨[], .other⟩

/-- The children of a group, given what its fields hold. -/
def childrenOf (fields : Fields) (held : Keyed Held) : List RuleNode :=
  let listed (name : String) : List RuleNode :=
    ((Keyed.find? held (.text name)).getD .nothing).listed
  match Fields.get fields "rules", Fields.get fields "or", Fields.get fields "and" with
  | .list _, _, _ => listed "rules"
  | _, .list _, _ => listed "or"
  | _, _, .list _ => listed "and"
  | _, _, _ =>
    if (Fields.get fields "not").truthy then
      [((Keyed.find? held (.text "not")).getD .nothing).single]
    else []

/-- A node from the fields of an object. A rule is one even if it could be a group too. -/
def ofFields (fields : Fields) (held : Keyed Held) : RuleNode :=
  if isRule fields then .rule fields
  else
    match Group.isGroup fields, Group.operator fields with
    | .ok true, .ok operator => .group operator fields (childrenOf fields held)
    | .ok true, .error fault => .faulty fault
    | .ok false, _ => .other
    | .error fault, _ => .faulty fault

mutual

def ofValue : Value → RuleNode
  | .object fields => ofFields fields (heldBy fields)
  | _ => .other

def ofList : List Value → List RuleNode
  | [] => []
  | item :: items => ofValue item :: ofList items

def heldBy : List (Scalar × Value) → List (Scalar × Held)
  | [] => []
  | (key, .list items) :: fields => (key, ⟨ofList items, .other⟩) :: heldBy fields
  | (key, value) :: fields => (key, ⟨[], ofValue value⟩) :: heldBy fields

end

mutual

/-- The rules of a node, groups taken apart in order. -/
def leaves : RuleNode → Except Fault (List Fields)
  | .rule fields => .ok [fields]
  | .group _ _ children => leavesOfAll children
  | .other => .ok []
  | .faulty fault => .error fault

def leavesOfAll : List RuleNode → Except Fault (List Fields)
  | [] => .ok []
  | node :: nodes => do
    let first ← leaves node
    return first ++ (← leavesOfAll nodes)

end

/-- The nodes of what a form gives as its rules. -/
def ofRules (rules : Value) : Except Fault (List RuleNode) := do return ofList (← rules.items)

def hasKind (nodes : List RuleNode) (kind : RuleKind) : Except Fault Bool := do
  return (← leavesOfAll nodes).any fun rule =>
    RuleKind.ofValue? (Fields.get rule "type") == some kind

/-- Adds a value that is not there yet. -/
def addValue (values : List Value) (value : Value) : List Value :=
  if Value.contains values value then values else values ++ [value]

/-- The fields that a rule reads besides its own. -/
def referencesOf (withConditions : Bool) (rule : Fields) : Except Fault (List Value) := do
  let kind? := RuleKind.ofValue? (Fields.get rule "type")
  let target := Fields.get rule "comparisonTarget"
  let compared := if kind? == some .compare && target.truthy then [target] else []
  let crossed ←
    if kind? == some .crossField then ((Fields.get rule "targetFields").orElse (.list [])).items
    else pure []
  let condition := Fields.get rule "when"
  let conditional :=
    if withConditions && condition.truthy then (Condition.names condition).map Value.text else []
  return compared ++ crossed ++ conditional

/-- The fields that some rules read, each once. -/
def references (withConditions : Bool) (nodes : List RuleNode) : Except Fault (List Value) := do
  let found ← (← leavesOfAll nodes).mapM (referencesOf withConditions)
  return found.flatten.foldl addValue []

end RuleNode

end FormRules

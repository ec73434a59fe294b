import FormRules.Form.Default
import FormRules.Form.Item
import FormRules.Pass.Rules

/-!
The items of a form. A field that is hidden or disabled is skipped together with its rules; a condition
that cannot be evaluated counts as left out. Fields that the data leave out have the default of their
type.
-/

namespace FormRules

/-- The answer of a condition on the state of an item; `absent` stands in for one that is left out or
cannot be evaluated. -/
def Condition.holdsOr (absent : Bool) (source : Source) (condition : Value) : Bool :=
  if condition.isNull then absent
  else
    match evaluate source (ofValue condition) with
    | .ok answer => answer
    | .error _ => absent

/-- The state of a field. -/
structure FieldState where
  isVisible : Bool
  isDisabled : Bool
  isRequired : Bool

namespace FieldState

/-- The state of a field; one with a rule that asks for a value is required unless it says otherwise. -/
def ofFields (source : Source) (fields : Fields) (asked : Bool) : FieldState where
  isVisible := Condition.holdsOr true source (Fields.get fields "visibleIf")
  isDisabled := Condition.holdsOr false source (Fields.get fields "disabledIf")
  isRequired := Condition.holdsOr asked source (Fields.get fields "requiredIf")

/-- Why a field is skipped, if it is. -/
def skipReason? (state : FieldState) : Option String :=
  if !state.isVisible then some "Field is not visible"
  else if state.isDisabled then some "Field is disabled"
  else none

end FieldState

namespace Pass

/-- Some steps with a report of their own, which is their result. -/
def ownReport (steps : Pass σ Unit) : Pass σ Report := do
  let outer := (← get).report
  modify ({ · with report := Report.counting })
  steps
  let own := (← get).report
  modify ({ · with report := outer })
  return own

/-- Skips a field with some rules. -/
def skipField (path : Value) (reason : String) (rules : Nat) : Pass σ Unit := do
  let report ← (← get).report.setSkipped path (.text reason)
  modify ({ · with report })
  count (·.skipAll rules)

/-- The value of a field, or the default of its type. -/
def fieldValue (context : Context) (path : Value) (fields : Fields) : Except Fault Value := do
  match ← context.find? path with
  | some value => return value
  | none => Form.defaultFor (Fields.get fields "type")

/-- What the rules of a field are checked against; the path of the field is that of the context. -/
def subjectOf (context : Context) (path : Value) (fields : Fields) (isRequired : Bool) :
    Except Fault Subject := do
  let value ← fieldValue context path fields
  let steps := Text.split '.' (← path.asText "split")
  return { path, value, isRequired, context := context.child (steps.map .text) }

/-- Checks a field that has a name and holds data. -/
def checkField (backend : Backend σ) (context : Context) (fields : Fields) (path : Value) :
    Pass σ Unit := do
  let nodes ← RuleNode.ofRules ((Fields.get fields "validationRules").orElse (.list []))
  let asked ← RuleNode.hasKind nodes .required
  let state := FieldState.ofFields context.source fields asked
  match state.skipReason? with
  | some reason => skipField path reason (← RuleNode.leavesOfAll nodes).length
  | none =>
    if nodes.isEmpty then return
    else checkAll backend (← subjectOf context path fields state.isRequired) nodes

/-- Checks an item that is no container. -/
def checkLeaf (backend : Backend σ) (context : Context) (fields : Fields) (parent : Value) :
    Pass σ Unit := do
  let sort ← ItemSort.ofFields fields
  if sort == .data && (Item.nameOf fields).truthy then
    checkField backend context fields (← Item.pathOf fields parent)

mutual

/-- The report of an item below a path. -/
def checkItem (backend : Backend σ) (context : Context) (parent : Value) : Item → Pass σ Report
  | .stray kind => throw (.attribute kind "get")
  | .untyped _ fault => throw fault
  | .leaf fields => ownReport (checkLeaf backend context fields parent)
  | .container fields children => do
    checkItems backend context (← Item.pathOf fields parent) Report.counting children

/-- A report with those of some items folded into it. -/
def checkItems (backend : Backend σ) (context : Context) (parent : Value) (report : Report) :
    List Item → Pass σ Report
  | [] => return report
  | item :: items => do
    checkItems backend context parent (report.merge (← checkItem backend context parent item)) items

end

end Pass

end FormRules

import FormRules.Condition.Compare
import FormRules.Context.Basic
import FormRules.Rule.Outcome
import FormRules.Value.Text

/-!
Rules that compare a value with that of another field.
-/

namespace FormRules.Rule

def checkCompare (value : Value) (rule : Fields) (context : Context) : Except Fault Outcome := do
  let field := Fields.get rule "comparisonTarget"
  if !field.truthy then return .pass
  else
    let target ← context.value field
    let operator := (Fields.get rule "comparisonType").orElse (.text "==")
    if ← Compare.holdsBy operator value target then return .pass
    else return .failure rule s!"Value must be {operator.shown} {target.shown}"

end FormRules.Rule

import FormRules.Value.Basic

/-!
What becomes of a rule when it is checked against a value.
-/

namespace FormRules

structure Outcome where
  valid : Bool
  error : Value := .null

namespace Outcome

def pass : Outcome := { valid := true }

/-- A failure with the message of the rule, or another one where the rule has none. -/
def failure (rule : Fields) (own : String) : Outcome where
  valid := false
  error := (Fields.get rule "message").orElse (.text own)

end Outcome

end FormRules

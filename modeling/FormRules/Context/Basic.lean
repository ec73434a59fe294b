import FormRules.Condition.Evaluate
import FormRules.Path
import FormRules.Settings

/-!
What a rule is checked against: the data and the form of a pass, the path of the field at hand, and the
parameters of a callback.
-/

namespace FormRules

structure Context where
  data : Value
  form : Value
  settings : Settings
  path : List Value
  external : Value
  timestamp : Moment
  params : Value
  caching : Bool

namespace Context

/-- Where conditions find the values of fields. -/
def source (context : Context) : Source := Source.document context.data

/-- The value of a field, null where there is none. -/
def value (context : Context) (field : Value) : Except Fault Value := context.source field

/-- The value at a path, if there is one. -/
def find? (context : Context) (field : Value) : Except Fault (Option Value) := do
  Path.find? context.data (← field.asText "split")

/-- The context of a nested field. -/
def child (context : Context) (path : List Value) : Context := { context with path }

/-- The context of a callback with parameters, null standing for none. -/
def withParams (context : Context) (params : Value) : Context := { context with params }

end Context

end FormRules

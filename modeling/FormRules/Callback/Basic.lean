import FormRules.Context.Basic

/-!
Callbacks: functions of a value and its context that rules call by name. What a callback gives counts
as acceptance if it is truthy.
-/

namespace FormRules

abbrev Callback := Value → Context → Except Fault Value

namespace Callback

/-- What becomes of a value that is called though it is no function. -/
def uncallable (value : Value) : Callback := fun _ _ => .error (.type (.notCallable value.kind))

/-- Functions that values can hold, by the name of their handle. -/
abbrev Table := List (String × Callback)

/-- The callback that a value is registered as; null stands for none. -/
def ofValue? (table : Table) (value : Value) : Option Callback :=
  match value with
  | .null => none
  | .handle name => some ((table.lookup name).getD (uncallable value))
  | value => some (uncallable value)

/-- The key of a field's own value among the values of other fields. -/
def ownKey : Scalar := .text "_currentValue"

end Callback

end FormRules

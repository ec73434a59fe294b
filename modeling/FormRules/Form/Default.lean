import FormRules.Value.Access

/-!
The values of fields that the data leave out, by the type of the field.
-/

namespace FormRules.Form

def textTypes : List String := [
  "text", "email", "password", "url", "tel", "color", "textarea", "select", "dropdown",
  "autocomplete", "tagbox"]

def numberTypes : List String := ["number", "range", "rating"]

def switchTypes : List String := ["boolean", "switch", "checkbox"]

def emptyTypes : List String := ["date", "datetime", "time", "file", "image"]

def listTypes : List String := ["array", "multiselect", "list"]

def objectTypes : List String := ["object", "json"]

/-- The default of a type; an unknown type is taken for text. -/
def defaultOf (type : String) : Value :=
  if numberTypes.contains type then .int 0
  else if switchTypes.contains type then .bool false
  else if emptyTypes.contains type then .null
  else if listTypes.contains type then .list []
  else if objectTypes.contains type then .object []
  else .text ""

def defaultFor (type : Value) : Except Fault Value := do
  match ← (type.orElse (.text "")).asKey with
  | .text name => return defaultOf name
  | _ => return .text ""

end FormRules.Form

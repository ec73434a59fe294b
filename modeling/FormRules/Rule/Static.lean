import FormRules.Form.Rule
import FormRules.Number.Reader
import FormRules.Rule.Outcome
import FormRules.Schema.Store
import FormRules.Value.Text

/-!
Rules on the value alone, which are checked by way of a schema. Texts that read as numbers count as
numbers where a number is asked for.
-/

namespace FormRules.Rule

/-- Something before and after an at sign, and a dot inside what comes after it; no blanks. -/
def emailPattern : String := "^[^ @]+@[^ @]+\\.[^ @]+$"

def blankPattern : String := "^\\s*$"

def typed (name : String) : String × Value := ("type", .text name)

/-- The limits that a rule gives, under the names of a schema for them. -/
def bounds (rule : Fields) (low high : String) : List (String × Value) :=
  [(low, Fields.get rule "min"), (high, Fields.get rule "max")].filter fun (_, limit) => !limit.isNull

/-- The schema of a rule on the value alone. -/
def schema? (kind : RuleKind) (rule : Fields) : Option Value :=
  let matching (pattern : Value) : Value := .ofFields [typed "string", ("pattern", pattern)]
  match kind with
  | .required => some (.ofFields [("not", .ofFields [("anyOf", .list [
      .ofFields [typed "null"], matching (.text blankPattern)])])])
  | .email => some (.ofFields [("anyOf", .list [
      .ofFields [typed "null"], .ofFields [("const", .text "")], matching (.text emailPattern)])])
  | .numeric => some (.ofFields [typed "number"])
  | .stringLength => some (.ofFields (typed "string" :: bounds rule "minLength" "maxLength"))
  | .arrayLength => some (.ofFields (typed "array" :: bounds rule "minItems" "maxItems"))
  | .range => some (.ofFields (typed "number" :: bounds rule "minimum" "maximum"))
  | .pattern =>
    let pattern := Fields.get rule "pattern"
    if pattern.truthy then some (matching pattern) else none
  | _ => none

def typeMessage (kind : RuleKind) : String :=
  match kind with
  | .numeric | .range => "Value must be a number"
  | .arrayLength => "Value must be a list"
  | _ => "Value must be a string"

/-- What a rule without a message of its own says of a demand that is not met. -/
def ownMessage (kind : RuleKind) (rule : Fields) (keyword : Keyword) : String :=
  let low := (Fields.get rule "min").shown
  let high := (Fields.get rule "max").shown
  match kind, keyword with
  | .required, _ => "This field is required"
  | .email, _ => "Invalid email format"
  | kind, .type => typeMessage kind
  | _, .minLength => s!"String length must be at least {low}"
  | _, .maxLength => s!"String length must be at most {high}"
  | _, .minItems => s!"Array must have at least {low} items"
  | _, .maxItems => s!"Array must have at most {high} items"
  | _, .minimum => s!"Value must be at least {low}"
  | _, .maximum => s!"Value must be at most {high}"
  | _, .pattern => "Value does not match the required pattern"
  | _, _ => "Validation failed"

/-- A text that reads as a number stands for that number. -/
def asNumber (value : Value) : Value :=
  match value with
  | .text s => ((Number.float? s).map Value.float).getD value
  | value => value

/-- The value that a rule is about. -/
def subject (kind : RuleKind) (value : Value) : Value :=
  match kind with
  | .numeric | .range => asNumber value
  | _ => value

/-- Checks a value by a schema that is kept for the rule. -/
def checkBySchema (kind : RuleKind) (rule : Fields) (schema value : Value) : Except Fault Outcome := do
  match ← Schema.violated? (subject kind value) (Schema.ofValue schema) with
  | none => return .pass
  | some keyword => return .failure rule (ownMessage kind rule keyword)

/-- Checks a value by the schema of a rule, which is fetched from a store. -/
def checkStatic (kind : RuleKind) (rule : Fields) (value : Value) (store : Schema.Store) :
    Except Fault Outcome × Schema.Store :=
  match schema? kind rule with
  | none => (.ok .pass, store)
  | some schema =>
    match store.fetch schema with
    | (.ok entry, store) => (checkBySchema kind rule entry.schema value, store)
    | (.error fault, store) => (.error fault, store)

end FormRules.Rule

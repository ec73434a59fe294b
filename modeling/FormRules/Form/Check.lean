import FormRules.Condition.Compare
import FormRules.Form.Rule
import FormRules.Value.Text

/-!
Checking the structure of a form before it is used. Every part that is out of order is reported with its
place; what is none of the alternatives for its place is reported as a whole. Names that the structure
does not know are left alone.
-/

namespace FormRules.Form

/-- The kinds of values that a place in a form can ask for. -/
inductive Shape where
  | object
  | list
  | text
  | number
  | switch
deriving DecidableEq, Repr

namespace Shape

def name : Shape → String
  | .object => "object"
  | .list => "array"
  | .text => "string"
  | .number => "number"
  | .switch => "boolean"

def fits (shape : Shape) (value : Value) : Bool :=
  match shape, value with
  | .object, .object _ => true
  | .list, .list _ => true
  | .text, .text _ => true
  | .number, .number _ => true
  | .switch, .bool _ => true
  | _, _ => false

end Shape

/-- Whether a field is left out or has a value that passes. -/
def allows (fields : Fields) (name : String) (passes : Value → Bool) : Bool :=
  (Keyed.find? fields (.text name)).all passes

/-- Whether a field is left out or is one of some names. -/
def allowsName (fields : Fields) (name : String) (options : List String) : Bool :=
  allows fields name fun
    | .text given => options.contains given
    | _ => false

def isTextList : Value → Bool
  | .list items => items.all (Shape.fits .text)
  | _ => false

mutual

/-- A condition is an object, a truth value or a list of conditions. -/
def isCondition : Value → Bool
  | .object _ | .bool _ => true
  | .list items => areConditions items
  | _ => false

def areConditions : List Value → Bool
  | [] => true
  | item :: items => isCondition item && areConditions items

end

def ruleTypes : List String := RuleKind.named.map (·.1)

def operators : List String := Operator.named.map (·.1)

/-- Whether the fields of an object are those of a rule. -/
def isSoundRule (fields : Fields) : Bool :=
  Fields.has fields "type" && allowsName fields "type" ruleTypes &&
  allows fields "message" (Shape.fits .text) &&
  allows fields "when" isCondition &&
  ["min", "max"].all (allows fields · (Shape.fits .number)) &&
  ["pattern", "comparisonTarget"].all (allows fields · (Shape.fits .text)) &&
  allowsName fields "comparisonType" operators &&
  allows fields "targetFields" isTextList &&
  ["points", "penalty", "tolerance"].all (allows fields · (Shape.fits .number)) &&
  ["apiEndpoint", "apiMethod"].all (allows fields · (Shape.fits .text)) &&
  allows fields "apiTimeout" (Shape.fits .number)

/-- What a field of a group holds, as far as it is sound: one rule or group, or a list of them. -/
structure Soundness where
  single : Bool
  listed : Bool

/-- Whether the fields of an object are those of a group, given which of them are sound. -/
def isSoundGroup (fields : Fields) (members : Keyed Soundness) : Bool :=
  let listed (name : String) : Bool := (Keyed.find? members (.text name)).all (·.listed)
  !Fields.has fields "type" &&
  allowsName fields "operator" ["and", "or", "not"] &&
  listed "rules" && listed "and" && listed "or" &&
  (Keyed.find? members (.text "not")).all (·.single) &&
  allows fields "stopOnFirstError" (Shape.fits .switch) &&
  ["groupMessage", "message"].all (allows fields · (Shape.fits .text)) &&
  ((Fields.has fields "operator" && Fields.has fields "rules") ||
    ["and", "or", "not"].any (Fields.has fields))

mutual

/-- A member of a list of rules is a rule or a group. -/
def isSoundNode : Value → Bool
  | .object fields => isSoundRule fields || isSoundGroup fields (soundnessOf fields)
  | _ => false

def areSoundNodes : List Value → Bool
  | [] => true
  | item :: items => isSoundNode item && areSoundNodes items

def soundnessOf : List (Scalar × Value) → List (Scalar × Soundness)
  | [] => []
  | (key, .list items) :: fields => (key, ⟨false, areSoundNodes items⟩) :: soundnessOf fields
  | (key, value) :: fields => (key, ⟨isSoundNode value, false⟩) :: soundnessOf fields

end

/-- A place in a form, the last step first. -/
abbrev Place := List String

def Place.text (place : Place) : String :=
  let path := String.intercalate "." place.reverse
  if path.isEmpty then "root" else path

def complain (place : Place) (message : String) : List Complaint := [⟨place.text, message⟩]

def expect (shape : Shape) (place : Place) (value : Value) : List Complaint :=
  if shape.fits value then []
  else complain place s!"{value.quotedText} is not of type {Text.quoted shape.name}"

def expectOneOf (options : List String) (place : Place) (value : Value) : List Complaint :=
  if options.any fun option => value.same (.text option) then []
  else complain place s!"{value.quotedText} is not one of {(Value.texts options).quotedText}"

/-- A value that has to be one of several alternatives. -/
def expectAny (passes : Value → Bool) (place : Place) (value : Value) : List Complaint :=
  if passes value then []
  else complain place s!"{value.quotedText} is not valid under any of the given schemas"

def inField (fields : Fields) (name : String) (check : Place → Value → List Complaint)
    (place : Place) : List Complaint :=
  match Keyed.find? fields (.text name) with
  | some value => check (name :: place) value
  | none => []

/-- The complaints about the items of a list, counted from a given index. -/
def inItems (check : Place → Value → List Complaint) (place : Place) (index : Nat) :
    List Value → List Complaint
  | [] => []
  | item :: items => check (toString index :: place) item ++ inItems check place (index + 1) items

def inList (check : Place → Value → List Complaint) (place : Place) (value : Value) : List Complaint :=
  match value with
  | .list items => inItems check place 0 items
  | value => expect .list place value

def requireField (fields : Fields) (name : String) (place : Place) : List Complaint :=
  if Fields.has fields name then [] else complain place s!"{Text.quoted name} is a required property"

/-- The complaints about the fields of an object; a value of another kind is one itself. -/
def inObject (check : Fields → List Complaint) (place : Place) (value : Value) : List Complaint :=
  match value with
  | .object fields => check fields
  | value => expect .object place value

/-- The complaints about the parts of an item other than what it holds. -/
def itemHead (fields : Fields) (place : Place) : List Complaint :=
  ["name", "dataField", "type"].flatMap (inField fields · (expect .text) place) ++
  inField fields "excludeFromPath" (expect .switch) place ++
  ["visibleIf", "disabledIf", "readonlyIf", "requiredIf"].flatMap
    (inField fields · (expectAny isCondition) place)

/-- The complaints about what an item holds, by the field and the place of the item. -/
abbrev Held := Place → List Complaint

/-- The complaints about an item, given those about the members of its fields. -/
def itemComplaints (fields : Fields) (held : Keyed Held) (place : Place) : List Complaint :=
  let inside := ((Keyed.find? held (.text "items")).map fun held => held ("items" :: place)).getD []
  itemHead fields place ++ inside ++
    inField fields "validationRules" (inList (expectAny isSoundNode)) place

mutual

def checkItem : Value → Place → List Complaint
  | .object fields, place => itemComplaints fields (heldBy fields) place
  | value, place => expect .object place value

def checkItems (index : Nat) : List Value → Place → List Complaint
  | [], _ => []
  | item :: items, place =>
    checkItem item (toString index :: place) ++ checkItems (index + 1) items place

def heldBy : List (Scalar × Value) → List (Scalar × Held)
  | [] => []
  | (key, .list items) :: fields => (key, checkItems 0 items) :: heldBy fields
  | (key, value) :: fields => (key, fun place => expect .list place value) :: heldBy fields

end

def categoryComplaints (place : Place) (value : Value) : List Complaint :=
  inObject (fun fields => fields.flatMap fun (key, category) =>
    expect .text (key.shown :: place) category) place value

def tierComplaints (place : Place) (value : Value) : List Complaint :=
  inObject (fun fields =>
    requireField fields "condition" place ++
    inField fields "condition" (expectAny isCondition) place ++
    ["result", "message"].flatMap (inField fields · (expect .text) place)) place value

/-- The complaints about a rule that scores the form as a whole. -/
def scoringComplaints (place : Place) (value : Value) : List Complaint :=
  inObject (fun fields =>
    requireField fields "type" place ++
    inField fields "name" (expect .text) place ++
    inField fields "type" (expectOneOf ["field", "aggregate"]) place ++
    ["subtype", "fieldName"].flatMap (inField fields · (expect .text) place) ++
    inField fields "inputFields" (inList (expect .text)) place ++
    inField fields "categoryMapping" categoryComplaints place ++
    inField fields "evaluationRules" (inList tierComplaints) place ++
    inField fields "storeResult" (expect .switch) place) place value

/-- All that is out of order in a form. -/
def complaints (form : Value) : List Complaint :=
  inObject (fun fields =>
    inField fields "formId" (expect .text) [] ++
    inField fields "items" (inList fun place item => checkItem item place) [] ++
    inField fields "validationRules" (inList (expectAny isSoundNode)) [] ++
    inField fields "computedRules" (inList scoringComplaints) []) [] form

end FormRules.Form

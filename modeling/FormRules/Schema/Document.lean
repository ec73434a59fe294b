import FormRules.Schema.Basic

/-!
Schemas read from documents. The demands come in the order of the document; names that mean nothing here
are left out.
-/

namespace FormRules.Schema

/-- What a field of a document holds, read as a schema or as a list of schemas. -/
structure Parts where
  value : Value
  single : List Demand
  listed : List (List Demand)

def limits : List (String × Keyword) := [
  ("minLength", .minLength), ("maxLength", .maxLength), ("minItems", .minItems),
  ("maxItems", .maxItems), ("minimum", .minimum), ("maximum", .maximum)]

/-- The demand that a named part of a schema makes. -/
def demand? (name : String) (parts : Parts) : Option Demand :=
  match name, parts.value with
  | "type", .text type => (ValueType.ofName? type).map .type
  | "const", value => some (.constant value)
  | "pattern", value => some (.pattern value)
  | "anyOf", _ => some (.anyOf parts.listed)
  | "not", _ => some (.negation parts.single)
  | name, value => (limits.lookup name).map fun keyword => .bound keyword value

def demandsOf (parts : Keyed Parts) : List Demand :=
  parts.filterMap fun (key, parts) =>
    match key with
    | .text name => demand? name parts
    | _ => none

mutual

def ofValue : Value → List Demand
  | .object fields => demandsOf (partsOf fields)
  | _ => []

def ofList : List Value → List (List Demand)
  | [] => []
  | item :: items => ofValue item :: ofList items

def partsOf : List (Scalar × Value) → List (Scalar × Parts)
  | [] => []
  | (key, .list items) :: fields => (key, ⟨.list items, [], ofList items⟩) :: partsOf fields
  | (key, value) :: fields => (key, ⟨value, ofValue value, []⟩) :: partsOf fields

end

end FormRules.Schema

import FormRules.Condition.Compare

/-!
Conditions on the fields of a form. A list holds when all its members do; an object combines other
conditions, or tests one field; anything else holds.
-/

namespace FormRules

inductive Condition where
  | always
  | all (clauses : List Condition)
  | any (clauses : List Condition)
  | negation (inner : Condition)
  | test (field operator operand : Value)
  | oneOf (field : Value) (options : List Value)
  | equals (field expected : Value)

namespace Condition

/-- The words that combine conditions. -/
def isLogical (key : Scalar) : Bool :=
  match key with
  | .text name => name == "and" || name == "or" || name == "not"
  | _ => false

/-- Whether the member of a combining word is there; an empty list or object is. -/
def isPresent : Value → Bool
  | .list _ | .object _ => true
  | value => value.truthy

/-- The clauses that a condition stands for, a list standing for its members. -/
def clauses : Condition → List Condition
  | .all members => members
  | condition => [condition]

/-- The test of one field that an object with one key is short for. -/
def shorthand (field : Scalar) (expected : Value) : Condition :=
  match expected with
  | .list [operator, operand] =>
    if (Operator.ofValue? operator).isSome then .test (.scalar field) operator operand
    else .oneOf (.scalar field) [operator, operand]
  | .list options => .oneOf (.scalar field) options
  | expected => .equals (.scalar field) expected

/-- The test that an object spells out or is short for. -/
def ofTest (fields : Fields) : Condition :=
  if Fields.has fields "field" && Fields.has fields "operator" && Fields.has fields "value" then
    .test (Fields.get fields "field") (Fields.get fields "operator") (Fields.get fields "value")
  else
    match fields with
    | [(key, expected)] => if isLogical key then .always else shorthand key expected
    | _ => .always

/-- The condition of an object, given what its fields are as conditions. -/
def ofFields (fields : Fields) (members : Keyed Condition) : Condition :=
  let member (word : String) : Condition := (Keyed.find? members (.text word)).getD .always
  let list (word : String) : List Condition :=
    match Fields.get fields word with
    | .list _ => clauses (member word)
    | _ => [member word]
  if isPresent (Fields.get fields "and") then .all (list "and")
  else if isPresent (Fields.get fields "or") then .any (list "or")
  else if isPresent (Fields.get fields "not") then .negation (member "not")
  else ofTest fields

mutual

def ofValue : Value → Condition
  | .list items => .all (ofItems items)
  | .object fields => ofFields fields (ofMembers fields)
  | _ => .always

def ofItems : List Value → List Condition
  | [] => []
  | item :: items => ofValue item :: ofItems items

def ofMembers : List (Scalar × Value) → List (Scalar × Condition)
  | [] => []
  | (key, value) :: fields => (key, ofValue value) :: ofMembers fields

end

theorem ofItems_eq_map (items : List Value) : ofItems items = items.map ofValue := by
  induction items with
  | nil => rfl
  | cons item items ih => rw [ofItems, ih, List.map_cons]

theorem find?_ofMembers (fields : Fields) (key : Scalar) :
    Keyed.find? (ofMembers fields) key = (Keyed.find? fields key).map ofValue := by
  induction fields with
  | nil => rfl
  | cons field fields ih =>
    obtain ⟨other, value⟩ := field
    by_cases here : other.coincides key <;> simp [ofMembers, Keyed.find?, here, ih]

end Condition

end FormRules

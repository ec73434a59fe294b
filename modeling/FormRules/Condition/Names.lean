import FormRules.Condition.Basic

/-!
The names of the fields that a condition reads, each once, in the order of their first appearance.
-/

namespace FormRules

/-- Adds a name that is not there yet. -/
def addName [BEq α] (names : List α) (name : α) : List α :=
  if names.contains name then names else names ++ [name]

def addNames [BEq α] (names more : List α) : List α := more.foldl addName names

namespace Condition

/-- The name that a condition gives as its field. -/
def nameOf : Value → List String
  | .text name => [name]
  | _ => []

/-- The keys that are names of fields in an object without a field of its own. -/
def keyNames (fields : Fields) : List String :=
  (Keyed.keys fields).flatMap fun key => if isLogical key then [] else nameOf (.scalar key)

/-- The names in an object, given those in its members. -/
def mentionsOf (fields : Fields) (members : Keyed (List String)) : List String :=
  let inside := ["and", "or", "not"].flatMap fun word =>
    (Keyed.find? members (.text word)).getD []
  if Fields.has fields "field" then nameOf (Fields.get fields "field") ++ inside
  else inside ++ keyNames fields

mutual

/-- The names in a condition, as often as they appear. -/
def mentions : Value → List String
  | .list items => itemMentions items
  | .object fields => mentionsOf fields (memberMentions fields)
  | _ => []

def itemMentions : List Value → List String
  | [] => []
  | item :: items => mentions item ++ itemMentions items

def memberMentions : List (Scalar × Value) → List (Scalar × List String)
  | [] => []
  | (key, value) :: fields => (key, mentions value) :: memberMentions fields

end

def names (expression : Value) : List String := addNames [] (mentions expression)

end Condition

end FormRules

import FormRules.Value.Access
import FormRules.Value.Text

/-!
The items of a form: containers, which hold other items, and fields. Containers may leave their own
name out of the paths of what they hold.
-/

namespace FormRules

/-- The sorts of items by their type. -/
inductive ItemSort where
  | container
  | idle
  | data
deriving DecidableEq, Repr

namespace ItemSort

def containerTypes : List String := ["group", "tabbed", "tab", "form", "grid", "tree"]

def idleTypes : List String := ["button", "empty"]

/-- The sort of an item; whatever is no container and not idle holds data. -/
def ofFields (fields : Fields) : Except Fault ItemSort := do
  match ← (Fields.get fields "type").asKey with
  | .text type =>
    return if containerTypes.contains type then .container
      else if idleTypes.contains type then .idle else .data
  | _ => return .data

end ItemSort

/-- An item as far as it can be understood. -/
inductive Item where
  | container (fields : Fields) (children : List Item)
  | leaf (fields : Fields)
  | untyped (fields : Fields) (fault : Fault)
  | stray (kind : Kind)

namespace Item

/-- An item from its fields, given what the members of its lists are as items. -/
def ofFields (fields : Fields) (members : Keyed (List Item)) : Item :=
  match ItemSort.ofFields fields with
  | .error fault => .untyped fields fault
  | .ok .container => .container fields ((Keyed.find? members (.text "items")).getD [])
  | .ok _ => .leaf fields

mutual

def ofValue : Value → Item
  | .object fields => ofFields fields (membersOf fields)
  | value => .stray value.kind

def ofList : List Value → List Item
  | [] => []
  | item :: items => ofValue item :: ofList items

def membersOf : List (Scalar × Value) → List (Scalar × List Item)
  | [] => []
  | (key, .list items) :: fields => (key, ofList items) :: membersOf fields
  | (key, _) :: fields => (key, []) :: membersOf fields

end

/-- The name of an item, null where there is none. -/
def nameOf (fields : Fields) : Value :=
  ((Fields.get fields "name").orElse (Fields.get fields "dataField")).orElse .null

/-- The items inside an item, null where it has no list of them. -/
def nestedOf (fields : Fields) : Value :=
  match Fields.get fields "items" with
  | .list items => .list items
  | _ => .null

/-- Whether a container leaves its name out of paths. -/
def leavesNameOut (fields : Fields) : Except Fault Bool := do
  match ← ItemSort.ofFields fields, Fields.get fields "excludeFromPath" with
  | .container, .bool true => return true
  | _, _ => return false

/-- The path of a name below another path. -/
def joinPath (parent name : Value) : Value :=
  if parent.truthy then .text s!"{parent.shown}.{name.shown}" else name

/-- The path of an item below another path, which is also the path handed down to what it holds. -/
def pathOf (fields : Fields) (parent : Value) : Except Fault Value := do
  let name := nameOf fields
  if !name.truthy then return parent
  let isLeftOut ← leavesNameOut fields
  return if isLeftOut then parent else joinPath parent name

/-- Adds the path of a name unless the name has one. -/
def addPath (paths : Keyed Value) (fields : Fields) (parent : Value) : Except Fault (Keyed Value) := do
  let name := nameOf fields
  if name.truthy then
    let path ← pathOf fields parent
    let key ← name.asKey
    return if Keyed.has paths key then paths else Keyed.insert paths key path
  else return paths

mutual

/-- The paths of all names of an item and what it holds, the first declaration of a name counting. -/
def addPaths (paths : Keyed Value) (parent : Value) : Item → Except Fault (Keyed Value)
  | .stray _ => .ok paths
  | .leaf fields => addPath paths fields parent
  | .untyped fields fault => do
    let _ ← addPath paths fields parent
    throw fault
  | .container fields children => do
    let paths ← addPath paths fields parent
    if children.isEmpty then return paths
    else addAllPaths paths (← pathOf fields parent) children

def addAllPaths (paths : Keyed Value) (parent : Value) : List Item → Except Fault (Keyed Value)
  | [] => .ok paths
  | item :: items => do addAllPaths (← addPaths paths parent item) parent items

end

/-- The paths of all names below some items. -/
def paths (items : List Item) (parent : Value) : Except Fault (Keyed Value) :=
  addAllPaths [] parent items

end Item

end FormRules

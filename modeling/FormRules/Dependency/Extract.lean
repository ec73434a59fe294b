import FormRules.Dependency.Graph
import FormRules.Form.Item
import FormRules.Form.Rule

/-!
Extracting the dependency graph from a form. Fields of one name share a node, in the order of their first
declaration. Then each field that is read is told which fields read it; one that is not declared gets a node
when it is first met.
-/

namespace FormRules.Dependency

/-- What the declarations of a name say. -/
structure Declared where
  name : Name
  path : Value
  rules : List Value := []
  computed : List Fields := []
  references : List Value := []

/-- The conditions of an item on its state. -/
def slots : List String := ["visibleIf", "disabledIf", "readonlyIf", "requiredIf"]

/-- The fields that the conditions of an item read. -/
def conditional (fields : Fields) : List Value :=
  slots.flatMap fun slot => (Condition.names (Fields.get fields slot)).map .text

/-- The rules that a field gives, none standing for an empty list. -/
def rulesOf (fields : Fields) : Except Fault (List Value) :=
  ((Fields.get fields "validationRules").orElse (.list [])).items

/-- What a declaration adds to those of the same name. -/
def Declared.add (declared more : Declared) : Declared :=
  { declared with
    rules := declared.rules ++ more.rules
    computed := declared.computed ++ more.computed
    references := declared.references ++ more.references }

/-- Changes what is known by a name; a new item comes last if there is none. -/
def amend {α : Type} (called : α → Name) (name : Name) (change : α → α) (new : α) : List α → List α
  | [] => [new]
  | item :: items =>
    if called item == name then change item :: items else item :: amend called name change new items

/-- Adds a declaration to those of its name. -/
def addDeclared (declared : List Declared) (added : Declared) : List Declared :=
  amend (·.name) added.name (·.add added) added declared

/-- The name under which an item declares a field; an item without a name or without data declares none. -/
def nameOf? (fields : Fields) : Except Fault (Option Name) := do
  let name := Item.nameOf fields
  let sort ← ItemSort.ofFields fields
  if !name.truthy || sort != .data then return none
  else return some ⟨← name.asKey⟩

/-- What an item says about the field of a name. -/
def declarationOf (paths : Keyed Value) (name : Name) (fields : Fields) : Except Fault Declared := do
  let rules ← rulesOf fields
  let nodes := RuleNode.ofList rules
  let leaves ← RuleNode.leavesOfAll nodes
  let computed := leaves.filter fun rule => RuleKind.ofValue? (Fields.get rule "type") == some .computed
  let references ← RuleNode.references true nodes
  let path := (Keyed.find? paths name.key).getD (.scalar name.key)
  return { name, path, rules, computed, references := conditional fields ++ references }

/-- Adds what an item declares. -/
def declareField (paths : Keyed Value) (declared : List Declared) (fields : Fields) :
    Except Fault (List Declared) := do
  match ← nameOf? fields with
  | none => return declared
  | some name => return addDeclared declared (← declarationOf paths name fields)

mutual

def declare (paths : Keyed Value) (declared : List Declared) : Item → Except Fault (List Declared)
  | .stray kind => .error (.attribute kind "get")
  | .untyped _ fault => .error fault
  | .leaf fields => declareField paths declared fields
  | .container _ children => declareAll paths declared children

def declareAll (paths : Keyed Value) (declared : List Declared) :
    List Item → Except Fault (List Declared)
  | [] => .ok declared
  | item :: items => do declareAll paths (← declare paths declared item) items

end

/-- The names that values stand for. -/
def namesOf (references : List Value) : Except Fault (List Name) :=
  references.mapM fun reference => reference.asKey.map Name.mk

/-- The node of a field, which is not told yet which fields read it. -/
def Declared.node (declared : Declared) : Except Fault Node := do
  let node : Node := {
    id := declared.name, path := declared.path, rules := declared.rules, computed := declared.computed }
  return (← namesOf declared.references).foldl Node.addDependency node

/-- The node of a field that is not declared. -/
def stub (paths : Keyed Value) (name : Name) : Node :=
  { id := name, path := (Keyed.find? paths name.key).getD (.scalar name.key) }

/-- Tells the field of a name that another field reads it. -/
def tell (paths : Keyed Value) (reader : Name) (nodes : List Node) (name : Name) : List Node :=
  amend (·.id) name (·.addDependent reader) ((stub paths name).addDependent reader) nodes

/-- Tells all fields that a field reads. -/
def tellAll (paths : Keyed Value) (nodes : List Node) (reader : Node) : List Node :=
  reader.dependencies.foldl (tell paths reader.id) nodes

/-- Nodes that know which of them read them, with those of the fields that are not declared. -/
def transpose (paths : Keyed Value) (nodes : List Node) : List Node := nodes.foldl (tellAll paths) nodes

/-- The items that a form lists, none standing for an empty list. -/
def itemsOf (form : Value) : Except Fault (List Item) := do
  return Item.ofList (← ((← form.field "items").orElse (.list [])).items)

theorem itemsOf_object (fields : Fields) :
    itemsOf (.object fields) = (((Fields.get fields "items").orElse (.list [])).items).map Item.ofList := by
  show (((Fields.get fields "items").orElse (.list [])).items >>= fun items => pure (Item.ofList items)) = _
  cases ((Fields.get fields "items").orElse (.list [])).items <;> rfl

def Graph.ofForm (form : Value) : Except Fault Graph := do
  let items ← itemsOf form
  let paths ← Item.paths items (.text "")
  let declared ← declareAll paths [] items
  let nodes ← declared.mapM Declared.node
  return ⟨transpose paths nodes⟩

end FormRules.Dependency

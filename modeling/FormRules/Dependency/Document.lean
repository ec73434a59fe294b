import FormRules.Dependency.Graph
import FormRules.Value.Access
import FormRules.Value.Text

/-!
Dependency graphs as documents and as diagrams. Fields without a level are marked in a diagram.
-/

namespace FormRules.Dependency.Graph

def levelValue (level? : Option Nat) : Value :=
  match level? with
  | some level => .int level
  | none => .null

def names (ids : List Name) : Value := .list (ids.map fun name => .scalar name.key)

def toValue (graph : Graph) : Value :=
  let leveling := graph.leveling
  let cycles := graph.cycles
  let node (node : Node) : Value := .ofFields [
    ("id", .scalar node.id.key),
    ("field", node.path),
    ("level", levelValue (leveling.levelOf? node.id)),
    ("rule_count", .int node.rules.length),
    ("computed_rule_count", .int node.computed.length)]
  let arrow (node : Node) (target : Name) : Value :=
    .ofFields [("from", .scalar node.id.key), ("to", .scalar target.key)]
  .ofFields [
    ("nodes", .list (graph.nodes.map node)),
    ("edges", .list (graph.nodes.flatMap fun node => node.dependencies.map (arrow node))),
    ("levels", .list (leveling.levels.map names)),
    ("has_circular", .bool (!cycles.isEmpty)),
    ("circular_paths", .list (cycles.map names))]

/-- The name of a field in a diagram, in which dots would be taken apart. -/
def plainName (id : Name) : Except Fault String := do
  let name ← (Value.scalar id.key).asText "replace"
  return String.ofList (name.toList.map fun c => if c = '.' then '_' else c)

/-- A diagram with a box for each field and an arrow to each field that it reads. -/
def diagram (graph : Graph) : Except Fault String := do
  let leveling := graph.leveling
  let boxes ← graph.nodes.mapM fun node => do
    let mark := if (leveling.levelOf? node.id).isSome then "" else ":::cyclic"
    return s!"    {← plainName node.id}[{node.path.shown}]{mark}"
  let arrows ← graph.nodes.mapM fun node => do
    let source ← plainName node.id
    node.dependencies.mapM fun target => do return s!"    {source} --> {← plainName target}"
  let lines := ["graph LR", "    classDef cyclic fill:#fce4ec"] ++ boxes ++ arrows.flatten
  return String.intercalate "\n" lines

end FormRules.Dependency.Graph

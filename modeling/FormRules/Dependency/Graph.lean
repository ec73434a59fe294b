import FormRules.Dependency.Name
import FormRules.Digraph.Cycles
import FormRules.Digraph.Levels
import FormRules.Digraph.Reach

/-!
The dependency graph of a form: which fields the conditions and rules of a field read, and which fields read
it. Fields that are read but not declared have nodes of their own, without rules.
-/

namespace FormRules.Dependency

structure Node where
  id : Name
  path : Value
  dependencies : List Name := []
  dependents : List Name := []
  rules : List Value := []
  computed : List Fields := []

structure Graph where
  nodes : List Node

namespace Node

/-- Notes that a field reads another one; it is noted once, and not where the name is equal to that of the field. -/
def addDependency (node : Node) (name : Name) : Node :=
  if name.equal node.id || node.dependencies.contains name then node
  else { node with dependencies := node.dependencies ++ [name] }

/-- Notes once that a field is read by another one. -/
def addDependent (node : Node) (name : Name) : Node :=
  if node.dependents.contains name then node
  else { node with dependents := node.dependents ++ [name] }

def vertex (node : Node) : Digraph.Vertex Name := ⟨node.id, node.dependencies, node.dependents⟩

end Node

namespace Graph

/-- The arrows from fields to what they read, and back. -/
def arrows (graph : Graph) : Digraph Name := graph.nodes.map Node.vertex

def ids (graph : Graph) : List Name := graph.nodes.map (·.id)

/-- The fields that a field reads. -/
def dependencies (graph : Graph) (name : Name) : List Name := graph.arrows.targets name

/-- The fields that read a field. -/
def dependents (graph : Graph) (name : Name) : List Name := graph.arrows.sources name

/-- The fields that a change of a field can affect: all that read it, directly or not. -/
def affected (graph : Graph) (name : Name) : List Name := graph.arrows.reaching name

def leveling (graph : Graph) : Digraph.Leveling Name := graph.arrows.leveling

/-- The fields by level. -/
def levels (graph : Graph) : List (List Name) := graph.leveling.levels

def cycles (graph : Graph) : List (List Name) := graph.arrows.cycles

def isCircular (graph : Graph) : Bool := !graph.cycles.isEmpty

theorem ids_eq_names (graph : Graph) : graph.ids = graph.arrows.names := by
  simp [ids, arrows, Digraph.names, Node.vertex]

end Graph

end FormRules.Dependency

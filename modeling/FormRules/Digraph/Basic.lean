/-!
Directed graphs: vertices in order, each with the vertices that its arrows lead to, its targets, and with
those from which arrows lead to it, its sources. Names may be written in several ways, so a vertex is looked
up by a name that is equal to its own.
-/

namespace FormRules

namespace Digraph

structure Vertex (α : Type) where
  name : α
  targets : List α := []
  sources : List α := []

end Digraph

/-- Vertices in order. -/
abbrev Digraph (α : Type) := List (Digraph.Vertex α)

namespace Digraph

variable {α : Type}

def names (graph : Digraph α) : List α := graph.map (·.name)

variable [BEq α]

def vertex? (graph : Digraph α) (name : α) : Option (Vertex α) := graph.find? (·.name == name)

/-- Where the arrows of a vertex lead; those of an unknown vertex lead nowhere. -/
def targets (graph : Digraph α) (name : α) : List α := ((graph.vertex? name).map (·.targets)).getD []

/-- Where the arrows to a vertex come from. -/
def sources (graph : Digraph α) (name : α) : List α := ((graph.vertex? name).map (·.sources)).getD []

theorem vertex?_eq_some {graph : Digraph α} {name : α} {vertex : Vertex α}
    (found : graph.vertex? name = some vertex) : vertex ∈ graph ∧ (vertex.name == name) = true :=
  ⟨List.mem_of_find?_eq_some found, by simpa using List.find?_some found⟩

end Digraph

end FormRules

import FormRules.Digraph.Basic

/-!
Searching a directed graph for cycles, depth first. At the first arrow back to the path that is being
followed, the cycle is noted and the vertex at the end of the path is left.
-/

namespace FormRules.Digraph

variable {α : Type} [BEq α]

/-- What a search has seen so far. -/
structure Search (α : Type) where
  visited : List α := []
  cycles : List (List α) := []

/-- The part of a path from a vertex on, and back to it. -/
def cycleAt (path : List α) (vertex : α) : List α := path.dropWhile (· != vertex) ++ [vertex]

/-- Follows the arrows at the end of a path, given how to follow a longer path. -/
def follow (visit : List α → α → Search α → Search α) (path : List α) :
    List α → Search α → Search α
  | [], search => search
  | target :: targets, search =>
    if path.contains target then
      { search with cycles := search.cycles ++ [cycleAt path target] }
    else if search.visited.contains target then follow visit path targets search
    else follow visit path targets (visit path target search)

/-- Visits a vertex at the end of a path; a path is no longer than there are vertices. -/
def visit (graph : Digraph α) : Nat → List α → α → Search α → Search α
  | 0, _, _, search => search
  | fuel + 1, path, vertex, search =>
    follow (visit graph fuel) (path ++ [vertex]) (graph.targets vertex)
      { search with visited := search.visited ++ [vertex] }

/-- Visits each vertex in order that has not been visited from an earlier one. -/
def searchFrom (graph : Digraph α) (search : Search α) (names : List α) : Search α :=
  names.foldl (fun search name =>
    if search.visited.contains name then search else visit graph graph.length [] name search) search

/-- The cycles found in a graph. -/
def cycles (graph : Digraph α) : List (List α) := (searchFrom graph {} graph.names).cycles

end FormRules.Digraph

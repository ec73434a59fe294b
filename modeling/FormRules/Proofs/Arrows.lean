import FormRules.Digraph.Basic
import FormRules.Proofs.DistinctNames
import Mathlib.Data.Fintype.Card
import Mathlib.Data.Set.Finite.List
import Mathlib.Logic.Relation

/-! The arrows of a directed graph, and what can be reached along them. Vertices are known by names that may
be written in several ways, so every notion here is taken up to the equality of names. -/

namespace FormRules

namespace Digraph

variable {α : Type} [BEq α]

/-- Whether an arrow leads from one vertex to another. -/
def Arrow (graph : Digraph α) (first second : α) : Prop := (graph.targets first).contains second = true

/-- Whether one or more arrows lead from one vertex to another. -/
abbrev Reaches (graph : Digraph α) : α → α → Prop := Relation.TransGen graph.Arrow

/-- A vertex from which arrows lead back to itself. -/
def OnCycle (graph : Digraph α) (name : α) : Prop := graph.Reaches name name

/-- A vertex from which arrows lead to a cycle, or which is on one. -/
def CycleAhead (graph : Digraph α) (name : α) : Prop :=
  ∃ other, Relation.ReflTransGen graph.Arrow name other ∧ graph.OnCycle other

/-- What holds of a vertex as soon as it holds of its targets holds of all from which no cycle is reached. -/
theorem induction_of_no_cycle {graph : Digraph α} {holds : Vertex α → Prop}
    (step : ∀ vertex ∈ graph, (∀ target ∈ graph, graph.Arrow vertex.name target.name → holds target) → holds vertex)
    (vertex : Vertex α) (member : vertex ∈ graph) (free : ¬graph.CycleAhead vertex.name) : holds vertex := by
  let Free := { vertex : Vertex α // vertex ∈ graph ∧ ¬graph.CycleAhead vertex.name }
  let Below (first second : Free) : Prop := graph.Reaches second.1.name first.1.name
  have finite : Finite Free := ((List.finite_toSet graph).subset fun _ inside => inside.1).to_subtype
  have order : IsTrans Free Below := ⟨fun _ _ _ left right => right.trans left⟩
  have loopless : Std.Irrefl Below := ⟨fun vertex round => vertex.2.2 ⟨_, .refl, round⟩⟩
  have wellFounded : WellFounded Below := Finite.wellFounded_of_trans_of_irrefl Below
  suffices all : ∀ vertex : Free, holds vertex.1 from all ⟨vertex, member, free⟩
  intro vertex
  induction vertex using wellFounded.induction with
  | _ vertex ih =>
    refine step vertex.1 vertex.2.1 fun target inside arrow => ?_
    refine ih ⟨target, inside, ?_⟩ (.single arrow)
    exact fun ⟨other, ahead, round⟩ => vertex.2.2 ⟨other, .head arrow ahead, round⟩

section Names

variable [EquivBEq α] (graph : Digraph α) {first second third : α}

/-- A vertex is the same under all names that are equal. -/
theorem vertex?_congr (equal : (first == second) = true) : graph.vertex? first = graph.vertex? second :=
  congrArg (graph.find? ·) (funext fun _ => BEq.congr_right equal)

theorem targets_congr (equal : (first == second) = true) : graph.targets first = graph.targets second := by
  rw [targets, targets, vertex?_congr graph equal]

variable {graph}

theorem Arrow.congr_left (arrow : graph.Arrow first third) (equal : (first == second) = true) :
    graph.Arrow second third := by
  unfold Arrow at arrow ⊢
  rwa [← targets_congr graph equal]

theorem Arrow.congr_right (arrow : graph.Arrow first second) (equal : (second == third) = true) :
    graph.Arrow first third := by
  unfold Arrow at arrow ⊢
  rwa [← List.contains_congr equal]

theorem Reaches.congr_left (reaches : graph.Reaches first third) (equal : (first == second) = true) :
    graph.Reaches second third := by
  obtain ⟨next, arrow, rest⟩ := Relation.TransGen.head'_iff.mp reaches
  exact .head' (arrow.congr_left equal) rest

theorem Reaches.congr_right (reaches : graph.Reaches first second) (equal : (second == third) = true) :
    graph.Reaches first third := by
  obtain ⟨last, rest, arrow⟩ := Relation.TransGen.tail'_iff.mp reaches
  exact .tail' rest (arrow.congr_right equal)

theorem OnCycle.congr (round : graph.OnCycle first) (equal : (first == second) = true) : graph.OnCycle second :=
  (Reaches.congr_left round equal).congr_right equal

end Names

/-- Graphs whose vertices know their arrows from both ends. No vertex has two arrows to the same one. -/
structure Linked (graph : Digraph α) : Prop where
  distinct : Distinct graph.names
  known : ∀ vertex ∈ graph, ∀ target ∈ vertex.targets, graph.names.contains target = true
  targets : ∀ vertex ∈ graph, Distinct vertex.targets
  sources : ∀ vertex ∈ graph, Distinct vertex.sources
  readers : ∀ vertex ∈ graph, ∀ source ∈ vertex.sources, graph.names.contains source = true
  transposed : ∀ first ∈ graph, ∀ second ∈ graph,
    first.targets.contains second.name = true ↔ second.sources.contains first.name = true

namespace Linked

variable [EquivBEq α] {graph : Digraph α}

theorem vertex?_of_mem (linked : graph.Linked) {vertex : Vertex α} (member : vertex ∈ graph) {name : α}
    (equal : (vertex.name == name) = true) : graph.vertex? name = some vertex :=
  Distinct.find?_eq linked.distinct member equal

theorem targets_of_mem (linked : graph.Linked) {vertex : Vertex α} (member : vertex ∈ graph) :
    graph.targets vertex.name = vertex.targets := by
  rw [Digraph.targets, linked.vertex?_of_mem member BEq.rfl]
  rfl

theorem arrow_iff (linked : graph.Linked) {vertex : Vertex α} (member : vertex ∈ graph) {name : α} :
    graph.Arrow vertex.name name ↔ vertex.targets.contains name = true := by
  rw [Arrow, linked.targets_of_mem member]

theorem exists_of_contains {name : α} (known : graph.names.contains name = true) :
    ∃ vertex ∈ graph, (vertex.name == name) = true := by
  obtain ⟨other, member, equal⟩ := List.contains_iff_exists_mem_beq.mp known
  obtain ⟨vertex, inside, rfl⟩ := List.mem_map.mp member
  exact ⟨vertex, inside, BEq.symm equal⟩

/-- Both ends of an arrow are vertices. -/
theorem ends_of_arrow (linked : graph.Linked) {first second : α} (arrow : graph.Arrow first second) :
    (∃ vertex ∈ graph, (vertex.name == first) = true) ∧ ∃ vertex ∈ graph, (vertex.name == second) = true := by
  unfold Arrow Digraph.targets at arrow
  cases found : graph.vertex? first with
  | none =>
    rw [found] at arrow
    cases arrow
  | some vertex =>
    rw [found] at arrow
    obtain ⟨member, equal⟩ := vertex?_eq_some found
    obtain ⟨target, listed, same⟩ := List.contains_iff_exists_mem_beq.mp arrow
    have known := linked.known vertex member target listed
    rw [← List.contains_congr same] at known
    exact ⟨⟨vertex, member, equal⟩, exists_of_contains known⟩

end Linked

end Digraph

end FormRules

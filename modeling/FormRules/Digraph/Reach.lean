import FormRules.Digraph.Basic

/-!
The vertices from which arrows lead to a given one, over any number of steps, breadth first. Main statement:
the search ends, as each vertex is taken in once and an unknown one has no sources.
-/

namespace FormRules.Digraph

variable {α : Type} [BEq α]

/-- How many vertices are not among some names. -/
def missing (graph : Digraph α) (found : List α) : Nat :=
  graph.countP fun vertex => !found.contains vertex.name

theorem missing_append_le (graph : Digraph α) (found : List α) (name : α) :
    graph.missing (found ++ [name]) ≤ graph.missing found := by
  refine List.countP_mono_left fun vertex _ left => ?_
  simp_all

theorem missing_append_lt [EquivBEq α] {graph : Digraph α} {found : List α} {name : α} {vertex : Vertex α}
    (known : graph.vertex? name = some vertex) (new : found.contains name = false) :
    graph.missing (found ++ [name]) < graph.missing found := by
  obtain ⟨member, equal⟩ := vertex?_eq_some known
  obtain ⟨before, after, rfl⟩ := List.append_of_mem member
  have left := missing_append_le before found name
  have right := missing_append_le after found name
  have counted : found.contains vertex.name = false := (List.contains_congr equal).trans new
  have gone : (found ++ [name]).contains vertex.name = true := by simp [equal]
  unfold missing at left right ⊢
  simp only [List.countP_append, List.countP_cons, counted, gone]
  simp only [Bool.not_false, Bool.not_true, if_true, Bool.false_eq_true, if_false]
  omega

/-- Takes in the vertices of a queue and, after them, all that lead to them. -/
def spread [EquivBEq α] (graph : Digraph α) (found : List α) : List α → List α
  | [] => found
  | name :: queue =>
    if found.contains name then spread graph found queue
    else
      spread graph (found ++ [name])
        (queue ++ (graph.sources name).filter fun source => !(found ++ [name]).contains source)
termination_by queue => (graph.missing found, queue.length)
decreasing_by
  · exact .right _ (Nat.lt_succ_self _)
  · rename_i new
    cases known : graph.vertex? name with
    | some vertex => exact .left _ _ (missing_append_lt known (Bool.eq_false_iff.mpr new))
    | none =>
      have nowhere : graph.sources name = [] := by simp [sources, known]
      simp only [nowhere, List.filter_nil, List.append_nil, List.length_cons]
      obtain same | less := Nat.eq_or_lt_of_le (missing_append_le graph found name)
      · rw [same]
        exact .right _ (Nat.lt_succ_self _)
      · exact .left _ _ less

/-- The vertices from which a vertex is reached in one or more steps. -/
def reaching [EquivBEq α] (graph : Digraph α) (name : α) : List α := spread graph [] (graph.sources name)

end FormRules.Digraph

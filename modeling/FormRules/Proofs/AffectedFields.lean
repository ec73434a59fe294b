import FormRules.Proofs.DependencyLinks

/-! What a change of a field can affect. The search against the arrows comes to all fields from which arrows lead
to the one that changes, over any number of them, and to no others, whether or not the arrows run in cycles. -/

namespace FormRules.Digraph

variable {α : Type} [BEq α] [EquivBEq α] {graph : Digraph α}

/-- The sources of a vertex are the vertices with an arrow to it. -/
theorem Linked.contains_sources_iff (linked : graph.Linked) {first second : α} :
    (graph.sources second).contains first = true ↔ graph.Arrow first second := by
  constructor
  · intro listed
    unfold Digraph.sources at listed
    cases found : graph.vertex? second with
    | none =>
      rw [found] at listed
      cases listed
    | some vertex =>
      rw [found] at listed
      obtain ⟨member, equal⟩ := vertex?_eq_some found
      obtain ⟨source, inside, same⟩ := List.contains_iff_exists_mem_beq.mp listed
      have known := linked.readers vertex member source inside
      rw [← List.contains_congr same] at known
      obtain ⟨reader, present, alike⟩ := exists_of_contains known
      have read : vertex.sources.contains reader.name = true := (List.contains_congr alike).trans listed
      have arrow := (linked.arrow_iff present).mpr ((linked.transposed reader present vertex member).mpr read)
      exact (arrow.congr_left alike).congr_right equal
  · intro arrow
    obtain ⟨⟨reader, present, alike⟩, vertex, member, equal⟩ := linked.ends_of_arrow arrow
    have arrow := (arrow.congr_left (BEq.symm alike)).congr_right (BEq.symm equal)
    have read := (linked.transposed reader present vertex member).mp ((linked.arrow_iff present).mp arrow)
    rw [Digraph.sources, linked.vertex?_of_mem member equal, ← List.contains_congr alike]
    exact read

/-- What is known while a search against the arrows is under way: every vertex that was found or waits reaches the
one that the search began from, and none that has an arrow to it or to a found one is left out. -/
structure Spreading (graph : Digraph α) (name : α) (found queue : List α) : Prop where
  distinct : Distinct found
  reached : ∀ other ∈ found ++ queue, graph.Reaches other name
  pursued : ∀ vertex ∈ name :: found, ∀ source, graph.Arrow source vertex → (found ++ queue).contains source = true

namespace Spreading

variable {name first : α} {found queue : List α}

theorem start (linked : graph.Linked) (name : α) : graph.Spreading name [] (graph.sources name) := by
  refine ⟨.nil, fun other listed => ?_, fun vertex only source arrow => ?_⟩
  · exact .single (linked.contains_sources_iff.mp (List.contains_iff_exists_mem_beq.mpr ⟨other, listed, BEq.rfl⟩))
  · obtain rfl := List.mem_singleton.mp only
    exact linked.contains_sources_iff.mpr arrow

theorem skip (spreading : graph.Spreading name found (first :: queue)) (old : found.contains first = true) :
    graph.Spreading name found queue := by
  refine ⟨spreading.distinct, fun other listed => ?_, fun vertex member source arrow => ?_⟩
  · exact spreading.reached other (List.mem_append.mpr ((List.mem_append.mp listed).imp_right (.tail _)))
  · have listed := spreading.pursued vertex member source arrow
    rw [List.contains_append, List.contains_cons, Bool.or_eq_true, Bool.or_eq_true] at listed
    rw [List.contains_append, Bool.or_eq_true]
    obtain earlier | here | later := listed
    · exact .inl earlier
    · exact .inl ((List.contains_congr here).trans old)
    · exact .inr later

theorem take (linked : graph.Linked) (spreading : graph.Spreading name found (first :: queue))
    (new : found.contains first = false) :
    graph.Spreading name (found ++ [first])
      (queue ++ (graph.sources first).filter (!(found ++ [first]).contains ·)) := by
  have ahead : graph.Reaches first name := spreading.reached first (List.mem_append_right _ List.mem_cons_self)
  refine ⟨spreading.distinct.append_singleton new, fun other listed => ?_, fun vertex member source arrow => ?_⟩
  · rw [← List.append_assoc, List.append_assoc found, List.singleton_append] at listed
    obtain earlier | fresh := List.mem_append.mp listed
    · exact spreading.reached other earlier
    · have source := List.contains_iff_exists_mem_beq.mpr ⟨other, List.mem_of_mem_filter fresh, BEq.rfl⟩
      exact .head (linked.contains_sources_iff.mp source) ahead
  · rw [← List.cons_append] at member
    obtain old | last := List.mem_append.mp member
    · have listed := spreading.pursued vertex old source arrow
      rw [List.append_cons] at listed
      rw [← List.append_assoc, List.contains_append, listed, Bool.true_or]
    · obtain rfl := List.mem_singleton.mp last
      -- A source that was found before is not put in the queue again.
      cases known : (found ++ [vertex]).contains source with
      | true => rw [List.contains_append, known, Bool.true_or]
      | false =>
        obtain ⟨other, listed, same⟩ := List.contains_iff_exists_mem_beq.mp (linked.contains_sources_iff.mpr arrow)
        refine List.contains_iff_exists_mem_beq.mpr ⟨other, ?_, same⟩
        refine List.mem_append_right _ (List.mem_append_right _ (List.mem_filter.mpr ⟨listed, ?_⟩))
        rw [← List.contains_congr same, known]
        rfl

/-- A search goes on until nothing waits. -/
theorem spread (linked : graph.Linked) (spreading : graph.Spreading name found queue) :
    graph.Spreading name (graph.spread found queue) [] := by
  fun_induction Digraph.spread graph found queue with
  | case1 found => exact spreading
  | case2 found first queue old ih => exact ih (spreading.skip old)
  | case3 found first queue new ih => exact ih (spreading.take linked (Bool.eq_false_iff.mpr new))

/-- A search that has come to its end has found all that it could. -/
theorem contains_iff (spreading : graph.Spreading name found []) {other : α} :
    found.contains other = true ↔ graph.Reaches other name := by
  obtain ⟨_, reached, pursued⟩ := spreading
  simp only [List.append_nil] at reached pursued
  constructor
  · intro listed
    obtain ⟨vertex, member, same⟩ := List.contains_iff_exists_mem_beq.mp listed
    exact (reached vertex member).congr_left (BEq.symm same)
  · intro reaches
    induction reaches using Relation.TransGen.head_induction_on with
    | single arrow => exact pursued name List.mem_cons_self _ arrow
    | head arrow _ ih =>
      obtain ⟨vertex, member, same⟩ := List.contains_iff_exists_mem_beq.mp ih
      exact pursued vertex (.tail _ member) _ (arrow.congr_right same)

end Spreading

theorem spreading_reaching (linked : graph.Linked) (name : α) : graph.Spreading name (graph.reaching name) [] :=
  (Spreading.start linked name).spread linked

end FormRules.Digraph

namespace FormRules.Dependency.Graph

/-- What a field of a form affects: each field from which one or more arrows lead to it, once and no other. It affects
itself just if it is on a cycle, and what is no field of the form affects nothing. -/
theorem ofForm_affected {form : Value} {graph : Graph} (built : ofForm form = .ok graph) (name : Name) :
    (∀ other, (graph.affected name).contains other = true ↔ graph.arrows.Reaches other name) ∧
      (∀ other ∈ graph.affected name, graph.ids.contains other = true) ∧ Distinct (graph.affected name) ∧
      ((graph.affected name).contains name = true ↔ graph.arrows.OnCycle name) ∧
      (graph.ids.contains name = false → graph.affected name = []) := by
  have linked := linked_of_ofForm built
  have spread := Digraph.spreading_reaching linked name
  have known {vertex : Digraph.Vertex Name} {id : Name} (inside : vertex ∈ graph.arrows)
      (equal : (vertex.name == id) = true) : graph.ids.contains id = true := by
    rw [ids_eq_names]
    exact List.contains_iff_exists_mem_beq.mpr ⟨_, List.mem_map_of_mem inside, BEq.symm equal⟩
  refine ⟨fun other => spread.contains_iff, fun other found => ?_, spread.distinct, spread.contains_iff, ?_⟩
  · obtain ⟨next, arrow, _⟩ := Relation.TransGen.head'_iff.mp (spread.reached other (List.mem_append_left _ found))
    obtain ⟨⟨vertex, inside, equal⟩, _⟩ := linked.ends_of_arrow arrow
    exact known inside equal
  · refine fun unknown => List.eq_nil_iff_forall_not_mem.mpr fun other found => ?_
    obtain ⟨last, _, arrow⟩ := Relation.TransGen.tail'_iff.mp (spread.reached other (List.mem_append_left _ found))
    obtain ⟨_, vertex, inside, equal⟩ := linked.ends_of_arrow arrow
    exact Bool.false_ne_true (unknown.symm.trans (known inside equal))

/-- Of three fields that read each other in a circle each affects all, and one that reads the circle affects none. -/
theorem ofForm_affected_circle :
    let field (name : String) (reads : List String) : Value := .ofFields [("name", .text name),
      ("visibleIf", .list (reads.map fun read => .ofFields [("field", .text read), ("operator", .text "==")]))]
    let form : Value := .ofFields [("items", .list [field "gross" ["net"], field "net" ["tax"],
      field "tax" ["gross", "rate"], field "note" ["gross", "net"]])]
    let gross : Name := ⟨.text "gross"⟩
    let net : Name := ⟨.text "net"⟩
    let tax : Name := ⟨.text "tax"⟩
    let note : Name := ⟨.text "note"⟩
    let rate : Name := ⟨.text "rate"⟩
    let graph : Graph := ⟨[⟨gross, .text "gross", [net], [tax, note], [], []⟩,
      ⟨net, .text "net", [tax], [gross, note], [], []⟩, ⟨tax, .text "tax", [gross, rate], [net], [], []⟩,
      ⟨note, .text "note", [gross, net], [], [], []⟩, ⟨rate, .text "rate", [], [tax], [], []⟩]⟩
    ofForm form = .ok graph ∧ (graph.affected tax).contains note = true ∧ (graph.affected tax).contains tax = true ∧
      (graph.affected rate).contains rate = false ∧ graph.affected ⟨.text "other"⟩ = [] := by
  intro field form gross net tax note rate graph
  have built : ofForm form = .ok graph := rfl
  have around : graph.arrows.Reaches gross tax := .head (b := net) rfl (.single rfl)
  have ⟨affected, _, _, cyclic, _⟩ := ofForm_affected built tax
  have ⟨_, _, _, last, _⟩ := ofForm_affected built rate
  refine ⟨built, (affected note).mpr (.head (b := gross) rfl around), cyclic.mpr (.head (b := gross) rfl around), ?_, ?_⟩
  · refine Bool.eq_false_iff.mpr fun found => ?_
    obtain ⟨_, arrow, _⟩ := Relation.TransGen.head'_iff.mp (last.mp found)
    cases arrow
  · exact (ofForm_affected built ⟨.text "other"⟩).2.2.2.2 rfl

end FormRules.Dependency.Graph

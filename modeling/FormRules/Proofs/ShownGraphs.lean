import FormRules.Dependency.Document
import FormRules.Proofs.NodePaths
import FormRules.Proofs.WritableValues

/-! Forms whose structure has been checked can be shown as graphs. Their fields are named by texts and have paths that
are texts, what reads or is read is a node, and so the graph can be written as a document and drawn as a diagram. -/

namespace FormRules

namespace Item

/-- Places below a text stand at paths that are texts. -/
def TextPaths (places : List Place) : Prop := ∀ place ∈ places, ∃ path, place.path = .text path

theorem textPaths_place? {fields : Fields} (sound : Form.SoundItem fields) (sort : ItemSort) (parent : String) :
    TextPaths (place? sort fields (.text parent)).toList := by
  obtain ⟨_, placed, path, rfl⟩ := pathOf_yields sound parent
  intro place member
  unfold place? at member
  rw [placed] at member
  split at member
  next found _ =>
    cases found
    obtain rfl := List.mem_singleton.mp member
    exact ⟨path, rfl⟩
  next => cases member

theorem textPaths_placesOf_of_each {items : List Item} {parent : String}
    (each : ∀ item ∈ items, TextPaths (places (.text parent) item)) : TextPaths (placesOf (.text parent) items) := by
  induction items with
  | nil => exact List.forall_mem_nil _
  | cons item items ih =>
    obtain ⟨here, later⟩ := List.forall_mem_cons.mp each
    exact List.forall_mem_append.mpr ⟨here, ih later⟩

theorem textPaths_places {item : Item} (accepted : item.Accepted) (parent : String) :
    TextPaths (places (.text parent) item) := by
  induction accepted generalizing parent with
  | leaf sound =>
    unfold places
    split
    · exact textPaths_place? sound _ parent
    · exact List.forall_mem_nil _
  | container sound _ ih =>
    obtain ⟨_, placed, path, rfl⟩ := pathOf_yields sound parent
    rw [places, placed]
    refine List.forall_mem_append.mpr ⟨textPaths_place? sound _ parent, ?_⟩
    exact textPaths_placesOf_of_each fun child member => ih child member path

theorem forall_mem_leavesOfAll {property : Fields → Prop} {items : List Item} :
    (∀ fields ∈ leavesOfAll items, property fields) ↔ ∀ item ∈ items, ∀ fields ∈ item.leaves, property fields := by
  induction items with
  | nil => simp [leavesOfAll]
  | cons item items ih => rw [leavesOfAll, List.forall_mem_append, ih, List.forall_mem_cons]

theorem soundItem_of_mem_leaves {item : Item} (accepted : item.Accepted) :
    ∀ fields ∈ item.leaves, Form.SoundItem fields := by
  induction accepted with
  | leaf sound => exact List.forall_mem_singleton.mpr sound
  | container _ _ ih => exact forall_mem_leavesOfAll.mpr ih

/-- The items that hold no others are sound among accepted items. -/
theorem soundItem_of_mem_leavesOfAll {items : List Item} (accepted : ∀ item ∈ items, item.Accepted) :
    ∀ fields ∈ leavesOfAll items, Form.SoundItem fields :=
  forall_mem_leavesOfAll.mpr fun item member => soundItem_of_mem_leaves (accepted item member)

end Item

namespace Dependency

/-- Names that are texts. -/
def TextNames (names : List Name) : Prop := ∀ name ∈ names, ∃ text, name = ⟨.text text⟩

theorem TextNames.of_contains {names : List Name} (texts : TextNames names) {name : Name}
    (listed : names.contains name = true) : ∃ text, name = ⟨.text text⟩ := by
  obtain ⟨other, member, equal⟩ := List.contains_iff_exists_mem_beq.mp listed
  obtain ⟨text, rfl⟩ := texts other member
  exact ⟨text, congrArg Name.mk (Keyed.eq_of_coincides_text equal)⟩

theorem textNames_namesOf {values : List Value} (texts : ∀ value ∈ values, ∃ text, value = .text text)
    {names : List Name} (found : namesOf values = .ok names) : TextNames names := by
  intro name member
  obtain ⟨value, listed, named⟩ := Fault.exists_of_mapM_ok found member
  obtain ⟨text, rfl⟩ := texts value listed
  cases named
  exact ⟨text, rfl⟩

section Fields

variable {fields : Fields} (sound : Form.SoundItem fields)

include sound

theorem nameOf?_text {name : Name} (named : nameOf? fields = .ok (some name)) : ∃ text, name = ⟨.text text⟩ := by
  obtain ⟨sort, told, _⟩ := Item.sort_yields sound
  unfold nameOf? at named
  rw [told] at named
  simp only [bind, Except.bind] at named
  split at named
  · cases named
  next kept =>
    obtain ⟨text, shape⟩ := (Item.isMessage_nameOf sound).text_of_truthy (by simp_all)
    rw [shape] at named
    cases named
    exact ⟨text, rfl⟩

/-- What an item reads is named by texts. -/
theorem readsOf_text {reads : List Name} (found : readsOf fields = .ok reads) : TextNames reads := by
  obtain ⟨declared, built, texts⟩ := declarationOf_yields sound [] ⟨.null⟩
  rw [(declarationOf_ok built).2] at found
  exact textNames_namesOf texts found

end Fields

theorem declarations_sound {leaves : List Fields} (sound : ∀ fields ∈ leaves, Form.SoundItem fields) :
    ∀ entry ∈ declarations leaves, (∃ text, entry.1 = ⟨.text text⟩) ∧ Form.SoundItem entry.2 := by
  intro entry member
  obtain ⟨fields, listed, declared⟩ := List.mem_filterMap.mp member
  split at declared
  next name named =>
    cases declared
    exact ⟨nameOf?_text (sound fields listed) named, sound fields listed⟩
  next => cases declared

namespace Graph

section Accepted

variable {fields : Fields} {items rules : List Value} (sound : Form.Sound fields items rules) {graph : Graph}
  (built : ofForm (.object fields) = .ok graph)

include sound

theorem declarations_of_sound :
    ∀ entry ∈ declarations (Item.leavesOfAll (Item.ofList items)),
      (∃ text, entry.1 = ⟨.text text⟩) ∧ Form.SoundItem entry.2 :=
  declarations_sound (Item.soundItem_of_mem_leavesOfAll sound.accepted)

include built

/-- The nodes of a form that is accepted are named by texts. -/
theorem textNames_ids : TextNames graph.ids := by
  obtain ⟨items', listed, ids, declared, undeclared⟩ := ofForm_reads built
  obtain rfl := Except.ok.inj (listed.symm.trans sound.itemsOf)
  have own := declarations_of_sound sound
  have reads : TextNames (graph.nodes.flatMap (·.dependencies)) := by
    intro name member
    obtain ⟨node, inside, listed⟩ := List.mem_flatMap.mp member
    cases known : ((declarations (Item.leavesOfAll (Item.ofList items))).map (·.1)).contains node.id with
    | false =>
      rw [(undeclared node inside known).1] at listed
      cases listed
    | true =>
      obtain ⟨reads, found, shape⟩ := declared node inside known
      rw [shape] at listed
      obtain ⟨names, among, held⟩ := List.mem_flatten.mp (List.mem_filter.mp (eraseDups_subset _ listed)).1
      obtain ⟨entry, declares, read⟩ := Fault.exists_of_mapM_ok found among
      exact readsOf_text (own entry (List.mem_filter.mp declares).1).2 read name held
  intro id member
  rw [ids] at member
  obtain first | later := List.mem_append.mp member
  · obtain ⟨entry, declares, rfl⟩ := List.mem_map.mp (eraseDups_subset _ first)
    exact (own entry declares).1
  · exact reads id (List.mem_filter.mp (eraseDups_subset _ later)).1

/-- Every field that is declared has a path, and all nodes show paths that are texts. -/
theorem paths_of_sound : ∃ paths, Item.paths (Item.ofList items) (.text "") = .ok paths ∧
    (∀ entry ∈ declarations (Item.leavesOfAll (Item.ofList items)),
      ∃ path, Keyed.find? paths entry.1.key = some (.text path)) ∧
    ∀ node ∈ graph.nodes, ∃ path, node.path = .text path := by
  obtain ⟨items', paths, listed, placed, shown⟩ := ofForm_pathIn built
  obtain rfl := Except.ok.inj (listed.symm.trans sound.itemsOf)
  have texts : Item.TextPaths (Item.placesOf (.text "") (Item.ofList items)) :=
    Item.textPaths_placesOf_of_each fun item member => Item.textPaths_places (sound.accepted item member) ""
  have finds (key : Scalar) : Keyed.find? paths key =
      (Item.firstNamed key (Item.placesOf (.text "") (Item.ofList items))).map (·.path) :=
    Item.addAllPaths_finds (Item.ofList items) placed key
  refine ⟨paths, placed, fun entry member => ?_, fun node member => ?_⟩
  · obtain ⟨⟨text, named⟩, _⟩ := declarations_of_sound sound entry member
    have key : entry.1.key ∈ (Item.dataPlaces (Item.placesOf (.text "") (Item.ofList items))).map (·.key) :=
      (Item.dataPlaces_placesOf (Item.ofList items) placed).2 ▸ List.mem_map_of_mem member
    obtain ⟨place, among, same⟩ := List.mem_map.mp key
    obtain ⟨first, found⟩ : ∃ first, Item.firstNamed entry.1.key (Item.placesOf (.text "") (Item.ofList items)) = some first :=
      Item.exists_firstNamed (List.mem_filter.mp among).1 (by rw [same, named, Scalar.coincides_text, beq_self_eq_true])
    obtain ⟨path, shape⟩ := texts first (Item.firstNamed_eq_some found).1
    exact ⟨path, by rw [finds, found, Option.map_some, shape]⟩
  · obtain ⟨text, named⟩ := textNames_ids sound built node.id (List.mem_map_of_mem member)
    rw [shown node member, pathIn, finds, named]
    cases found : Item.firstNamed (.text text) (Item.placesOf (.text "") (Item.ofList items)) with
    | none => exact ⟨text, rfl⟩
    | some first => exact texts first (Item.firstNamed_eq_some found).1

end Accepted

theorem plainName_yields {id : Name} (named : ∃ text, id = ⟨.text text⟩) : Yields (plainName id) fun _ => True := by
  obtain ⟨text, rfl⟩ := named
  exact .ok trivial

/-- A graph whose nodes are named by texts can be drawn. -/
theorem diagram_yields {graph : Graph} (texts : TextNames graph.ids)
    (known : ∀ node ∈ graph.nodes, ∀ name ∈ node.dependencies, graph.ids.contains name = true) :
    Yields graph.diagram fun _ => True := by
  have named {node : Node} (member : node ∈ graph.nodes) : Yields (plainName node.id) fun _ => True :=
    plainName_yields (texts node.id (List.mem_map_of_mem member))
  unfold diagram
  refine Yields.bind (Yields.mapM (q := fun _ => True) fun node member => ?_) fun boxes _ => ?_
  · exact (named member).bind fun _ _ => .ok trivial
  refine Yields.bind (Yields.mapM (q := fun _ => True) fun node member => ?_) fun arrows _ => .ok trivial
  refine (named member).bind fun source _ => ?_
  refine (Yields.mapM (q := fun _ => True) fun target listed => ?_).weaken fun _ _ => trivial
  exact (plainName_yields (texts.of_contains (known node member target listed))).bind fun _ _ => .ok trivial

theorem isWritable_names (ids : List Name) : (names ids).isWritable = true :=
  Value.isWritable_list_map.mpr fun _ _ => rfl

theorem isWritable_levelValue (level? : Option Nat) : (levelValue level?).isWritable = true := by
  cases level? <;> rfl

/-- A graph can be written if the paths that it shows can be. -/
theorem isWritable_toValue {graph : Graph} (paths : ∀ node ∈ graph.nodes, node.path.isWritable = true) :
    graph.toValue.isWritable = true := by
  unfold toValue
  simp only [Value.isWritable_ofFields, List.all_cons, List.all_nil, Bool.and_eq_true, Bool.and_true,
    Value.isWritable_list_map, isWritable_names, isWritable_levelValue, implies_true, true_and]
  refine ⟨fun node member => ⟨rfl, paths node member, rfl, rfl⟩, ?_, rfl, trivial⟩
  refine Value.areWritable_iff.mpr fun arrow member => ?_
  obtain ⟨node, _, listed⟩ := List.mem_flatMap.mp member
  obtain ⟨target, _, rfl⟩ := List.mem_map.mp listed
  rfl

end Graph

end Dependency

namespace Form

open Dependency (Graph TextNames declarations)

/-- A form whose structure is in order has a graph. Each field that it declares has a path, each name that a node reads
or is read by is that of a node, and the graph can be drawn as a diagram and written as a document. -/
theorem graph_of_complaints {form : Value} (clean : complaints form = []) :
    ∃ items paths graph, Dependency.itemsOf form = .ok items ∧ Item.paths items (.text "") = .ok paths ∧
      (∀ entry ∈ declarations (Item.leavesOfAll items), ∃ path, Keyed.find? paths entry.1.key = some (.text path)) ∧
      Graph.ofForm form = .ok graph ∧ TextNames graph.ids ∧
      (∀ node ∈ graph.nodes, (∃ path, node.path = .text path) ∧
        ∀ name ∈ node.dependencies ++ node.dependents, graph.ids.contains name = true) ∧
      (∃ text, graph.diagram = .ok text) ∧ ∀ depth, ∃ text, Json.indented depth graph.toValue = .ok text := by
  obtain ⟨fields, items, rules, rfl, sound⟩ := sound_of_complaints clean
  obtain ⟨graph, built, _⟩ := sound.graph
  obtain ⟨paths, placed, declared, shown⟩ := Graph.paths_of_sound sound built
  have texts := Graph.textNames_ids sound built
  have linked := Graph.linked_of_ofForm built
  have vertex {node : Dependency.Node} (member : node ∈ graph.nodes) : node.vertex ∈ graph.arrows :=
    List.mem_map_of_mem member
  have known (node : Dependency.Node) (member : node ∈ graph.nodes) :
      ∀ name ∈ node.dependencies ++ node.dependents, graph.ids.contains name = true := by
    rw [graph.ids_eq_names]
    exact List.forall_mem_append.mpr ⟨linked.known _ (vertex member), linked.readers _ (vertex member)⟩
  have drawn := Graph.diagram_yields texts fun node member name listed =>
    known node member name (List.mem_append_left _ listed)
  have writable : graph.toValue.isWritable = true := Graph.isWritable_toValue fun node member => by
    obtain ⟨path, shape⟩ := shown node member
    rw [shape]
    rfl
  refine ⟨_, paths, graph, sound.itemsOf, placed, declared, built, texts,
    fun node member => ⟨shown node member, known node member⟩, ?_, fun depth => ?_⟩
  · exact drawn.imp fun text drawn => drawn.1
  · exact (Json.indented_yields _ writable depth).imp fun text written => written.1

/-- Two fields in a group that are shown and checked by each other, one of them also by a field that is not declared. -/
theorem graph_of_complaints_stay :
    let reads (name : String) : Value := .ofFields [("field", .text name), ("operator", .text "not_empty")]
    let compared : Value := .ofFields [("type", .text "compare"), ("comparisonTarget", .text "from"),
      ("when", .ofFields [("not", reads "guests")])]
    let first : Value := .ofFields [("name", .text "from"), ("type", .text "date"), ("visibleIf", reads "to")]
    let rules : List Value := [.ofFields [("type", .text "required")], .ofFields [("or", .list [compared])]]
    let last : Value := .ofFields [("name", .text "to"), ("type", .text "date"), ("validationRules", .list rules)]
    let form : Value := .ofFields [("name", .text "booking"),
      ("items", .list [.ofFields [("name", .text "stay"), ("type", .text "group"), ("items", .list [first, last])]])]
    let graph : Graph := ⟨[⟨⟨.text "from"⟩, .text "stay.from", [⟨.text "to"⟩], [⟨.text "to"⟩], [], []⟩,
      ⟨⟨.text "to"⟩, .text "stay.to", [⟨.text "from"⟩, ⟨.text "guests"⟩], [⟨.text "from"⟩], rules, []⟩,
      ⟨⟨.text "guests"⟩, .text "guests", [], [⟨.text "to"⟩], [], []⟩]⟩
    complaints form = [] ∧ Graph.ofForm form = .ok graph ∧ TextNames graph.ids ∧
      (∃ text, graph.diagram = .ok text) ∧ ∃ text, Json.indented 0 graph.toValue = .ok text := by
  intro reads compared first rules last form graph
  have clean : complaints form = [] := by decide +kernel
  have known : Graph.ofForm form = .ok graph := rfl
  obtain ⟨_, _, _, _, _, _, built, texts, _, drawn, written⟩ := graph_of_complaints clean
  obtain rfl := Except.ok.inj (built.symm.trans known)
  exact ⟨clean, known, texts, drawn, written 0⟩

end Form

end FormRules

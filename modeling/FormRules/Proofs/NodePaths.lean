import FormRules.Proofs.AcceptedForms
import FormRules.Proofs.DependencyLinks
import FormRules.Proofs.KeyedJoins
import FormRules.Proofs.RearrangedItems

/-! The paths that the dependency graph shows for fields, next to the paths under which fields are checked. The graph
goes by names: the path of a name is that of the first item that has it, be it a container or an item without data. -/

namespace FormRules

namespace Item

/-- An item with a name, and the path at which it stands. -/
structure Place where
  key : Scalar
  path : Value
  sort : ItemSort

def place? (sort : ItemSort) (fields : Fields) (parent : Value) : Option Place :=
  match (nameOf fields).truthy, pathOf fields parent, (nameOf fields).asKey with
  | true, .ok path, .ok key => some { key, path, sort }
  | _, _, _ => none

mutual

/-- The items with names, in the order of the form, a container before what is inside of it. -/
def places (parent : Value) : Item → List Place
  | .stray _ => []
  | .untyped _ _ => []
  | .leaf fields =>
    match ItemSort.ofFields fields with
    | .ok sort => (place? sort fields parent).toList
    | .error _ => []
  | .container fields children =>
    (place? .container fields parent).toList ++
      match pathOf fields parent with
      | .ok path => placesOf path children
      | .error _ => []

def placesOf (parent : Value) : List Item → List Place
  | [] => []
  | item :: items => places parent item ++ placesOf parent items

end

/-- The first of some items that has a name. -/
def firstNamed (key : Scalar) (places : List Place) : Option Place := places.find? (·.key.coincides key)

theorem firstNamed_eq_some {key : Scalar} {places : List Place} {first : Place}
    (found : firstNamed key places = some first) : first ∈ places ∧ first.key.coincides key = true :=
  ⟨List.mem_of_find?_eq_some found, List.find?_some (p := fun place : Place => place.key.coincides key) found⟩

theorem exists_firstNamed {key : Scalar} {places : List Place} {place : Place} (member : place ∈ places)
    (same : place.key.coincides key = true) : ∃ first, firstNamed key places = some first :=
  Option.isSome_iff_exists.mp (List.find?_isSome.mpr ⟨place, member, same⟩)

/-- Those of some items that hold data. -/
def dataPlaces (places : List Place) : List Place := places.filter (·.sort == .data)

theorem dataPlaces_append (first second : List Place) :
    dataPlaces (first ++ second) = dataPlaces first ++ dataPlaces second := List.filter_append ..

theorem dataPlaces_eq_nil {places : List Place} (other : ∀ place ∈ places, place.sort ≠ .data) :
    dataPlaces places = [] :=
  List.filter_eq_nil_iff.mpr fun place member data => other place member (beq_iff_eq.mp data)

/-- If the first item of a name holds data, then it is the first one of those that do. -/
theorem firstNamed_dataPlaces {key : Scalar} {places : List Place} {first : Place}
    (found : firstNamed key places = some first) (data : first.sort = .data) :
    firstNamed key (dataPlaces places) = some first := by
  obtain ⟨same, before, after, rfl, others⟩ := List.find?_eq_some_iff_append.mp found
  have apart : firstNamed key (dataPlaces before) = none :=
    List.find?_eq_none.mpr fun place member => by simpa using others place (List.mem_filter.mp member).1
  have here : dataPlaces (first :: after) = first :: dataPlaces after :=
    List.filter_cons_of_pos (beq_iff_eq.mpr data)
  rw [firstNamed] at apart ⊢
  rw [dataPlaces_append, here, List.find?_append, apart, Option.none_or]
  exact List.find?_cons_of_pos same

section Paths

variable {fields : Fields} {parent : Value} {paths result : Keyed Value}

/-- What has a name and can be added to paths has a place. -/
theorem addPath_ok (added : addPath paths fields parent = .ok result) (sort : ItemSort) :
    ((nameOf fields).truthy = false ∧ place? sort fields parent = none ∧ result = paths) ∨
      ∃ path key, (nameOf fields).truthy = true ∧ pathOf fields parent = .ok path ∧
        (nameOf fields).asKey = .ok key ∧ place? sort fields parent = some { key, path, sort } ∧
        result = if Keyed.has paths key then paths else Keyed.insert paths key path := by
  unfold addPath at added
  simp only at added
  split at added
  next named =>
    obtain ⟨path, place, added⟩ := Fault.of_bind_ok added
    obtain ⟨key, known, added⟩ := Fault.of_bind_ok added
    cases added
    exact .inr ⟨path, key, named, place, known, by simp only [place?, named, place, known], rfl⟩
  next unnamed =>
    cases added
    have unnamed := Bool.eq_false_iff.mpr unnamed
    exact .inl ⟨unnamed, by simp only [place?, unnamed], rfl⟩

theorem addPath_finds (added : addPath paths fields parent = .ok result) (sort : ItemSort) (key : Scalar) :
    Keyed.find? result key =
      (Keyed.find? paths key).or ((firstNamed key (place? sort fields parent).toList).map (·.path)) := by
  obtain ⟨_, nowhere, rfl⟩ | ⟨path, own, _, _, _, here, rfl⟩ := addPath_ok added sort
  · rw [nowhere]
    exact Option.or_none.symm
  · have single : firstNamed key [⟨own, path, sort⟩] = if own.coincides key then some ⟨own, path, sort⟩ else none := by
      unfold firstNamed
      rw [List.find?_cons, List.find?_nil]
      cases own.coincides key <;> rfl
    rw [here, Option.toList_some, single]
    by_cases same : own.coincides key = true
    · rw [if_pos same, Keyed.has, Keyed.find?_congr paths same]
      cases found : Keyed.find? paths key with
      | some path => exact found
      | none =>
        show Keyed.find? (Keyed.insert paths own path) key = some path
        rw [Keyed.find?_insert, if_pos same]
    · rw [if_neg same, Option.map_none, Option.or_none]
      split
      · rfl
      · rw [Keyed.find?_insert, if_neg same]

theorem firstNamed_append (key : Scalar) (first second : List Place) :
    (firstNamed key (first ++ second)).map (·.path) =
      ((firstNamed key first).map (·.path)).or ((firstNamed key second).map (·.path)) := by
  rw [firstNamed, List.find?_append]
  exact Option.map_or

/-- The paths of a container that have been added are its own and those of what is inside of it. -/
theorem addPaths_container {children : List Item}
    (added : addPaths paths parent (.container fields children) = .ok result) :
    ∃ middle, addPath paths fields parent = .ok middle ∧
      ((children = [] ∧ result = middle) ∨
        ∃ path, pathOf fields parent = .ok path ∧ addAllPaths middle path children = .ok result) := by
  unfold addPaths at added
  obtain ⟨middle, own, added⟩ := Fault.of_bind_ok added
  refine ⟨middle, own, ?_⟩
  split at added
  next empty =>
    cases added
    exact .inl ⟨List.isEmpty_iff.mp empty, rfl⟩
  next =>
    obtain ⟨path, place, added⟩ := Fault.of_bind_ok added
    exact .inr ⟨path, place, added⟩

mutual

/-- The path of a name is the one that was known, or that of the first item of this name. -/
theorem addPaths_finds : (item : Item) → ∀ {parent paths result}, addPaths paths parent item = .ok result → ∀ key,
    Keyed.find? result key = (Keyed.find? paths key).or ((firstNamed key (places parent item)).map (·.path))
  | .stray _, _, _, _, added, _ => by
    cases added
    exact Option.or_none.symm
  | .untyped fields fault, _, _, _, added, _ => by
    obtain ⟨_, _, added⟩ := Fault.of_bind_ok added
    cases added
  | .leaf fields, parent, _, _, added, key => by
    rw [places]
    cases told : ItemSort.ofFields fields with
    | ok sort => exact addPath_finds added sort key
    | error fault =>
      -- an item whose sort is not known has no path, so it has no name either
      obtain ⟨_, _, rfl⟩ | ⟨path, own, named, place, _⟩ := addPath_ok added .data
      · exact Option.or_none.symm
      · simp [pathOf, leavesNameOut, named, told, bind, Except.bind] at place
  | .container fields children, parent, _, _, added, key => by
    obtain ⟨middle, own, rest⟩ := addPaths_container added
    rw [places, firstNamed_append, ← Option.or_assoc, ← addPath_finds own .container key]
    obtain ⟨rfl, rfl⟩ | ⟨path, place, added⟩ := rest
    · cases pathOf fields parent <;> exact Option.or_none.symm
    · rw [place]
      exact addAllPaths_finds children added key

theorem addAllPaths_finds : (items : List Item) → ∀ {parent paths result},
    addAllPaths paths parent items = .ok result → ∀ key,
    Keyed.find? result key = (Keyed.find? paths key).or ((firstNamed key (placesOf parent items)).map (·.path))
  | [], _, _, _, added, _ => by
    cases added
    exact Option.or_none.symm
  | item :: items, _, _, _, added, key => by
    obtain ⟨middle, first, added⟩ := Fault.of_bind_ok added
    rw [placesOf, firstNamed_append, ← Option.or_assoc, ← addPaths_finds item first key]
    exact addAllPaths_finds items added key

end

end Paths

section Data

open Dependency (declarations)

variable {fields : Fields} {parent : Value} {paths result : Keyed Value}

theorem path?_erase_items (fields : Fields) (parent : Value) :
    (Piece.field (Keyed.erase fields (.text "items")) parent).path? = (Piece.field fields parent).path? := by
  have agree := agree_erase_items fields
  simp only [Piece.path?, ofFields_congr agree, pathOf_congr agree, nameOf_congr agree]

theorem sort_of_mem_place? {sort : ItemSort} {place : Place} (member : place ∈ (place? sort fields parent).toList) :
    place.sort = sort := by
  unfold place? at member
  split at member
  next =>
    obtain rfl := List.mem_singleton.mp member
    rfl
  next => cases member

/-- An item that holds data is checked under the path of its place, and declared under the name. -/
theorem dataPlaces_leaf (added : addPath paths fields parent = .ok result) :
    (Piece.field fields parent).path?.toList = (dataPlaces (places parent (.leaf fields))).map (·.path) ∧
      (declarations [fields]).map (·.1.key) = (dataPlaces (places parent (.leaf fields))).map (·.key) := by
  have found := addPath_ok added .data
  by_cases data : ItemSort.ofFields fields = .ok .data ∧ (nameOf fields).truthy = true
  · obtain ⟨told, named⟩ := data
    obtain ⟨unnamed, _⟩ | ⟨path, key, _, place, known, here, _⟩ := found
    · rw [named] at unnamed
      cases unnamed
    · have checked : (Piece.field fields parent).path? = some path :=
        Piece.path?_eq_some.mpr ⟨told, named, place⟩
      have declared : declarations [fields] = [(⟨key⟩, fields)] := by
        simp [declarations, Dependency.nameOf?, told, named, known, bind, Except.bind, pure, Except.pure]
      simp only [checked, declared, places, told, here]
      exact ⟨rfl, rfl⟩
  · have unchecked : (Piece.field fields parent).path? = none := Piece.path?_eq_none data
    have undeclared : declarations [fields] = [] ∧ dataPlaces (places parent (.leaf fields)) = [] := by
      cases told : ItemSort.ofFields fields with
      | error fault =>
        simp [declarations, Dependency.nameOf?, places, told, bind, Except.bind, dataPlaces]
      | ok sort =>
        cases unnamed : (nameOf fields).truthy with
        | false =>
          simp [declarations, Dependency.nameOf?, places, place?, told, unnamed, bind, Except.bind, pure, Except.pure,
            dataPlaces]
        | true =>
          have other : sort ≠ .data := fun same => data ⟨same ▸ told, unnamed⟩
          refine ⟨by simp [declarations, Dependency.nameOf?, told, other, bind, Except.bind, pure, Except.pure], ?_⟩
          simp only [places, told]
          exact dataPlaces_eq_nil fun place member => by rw [sort_of_mem_place? member]; exact other
    rw [unchecked, undeclared.1, undeclared.2]
    exact ⟨rfl, rfl⟩

mutual

/-- What holds data is checked under its path and declared under its name, in the order of the form. -/
theorem dataPlaces_places : (item : Item) → ∀ {parent paths result}, addPaths paths parent item = .ok result →
    (pieces parent item).filterMap Piece.path? = (dataPlaces (places parent item)).map (·.path) ∧
      (declarations item.leaves).map (·.1.key) = (dataPlaces (places parent item)).map (·.key)
  | .stray _, _, _, _, _ => ⟨rfl, rfl⟩
  | .untyped fields fault, _, _, _, added => by
    obtain ⟨_, _, added⟩ := Fault.of_bind_ok added
    cases added
  | .leaf fields, parent, _, _, added => by
    obtain ⟨checked, declared⟩ := dataPlaces_leaf added
    refine ⟨?_, declared⟩
    rw [← checked, pieces, List.filterMap_cons, path?_erase_items]
    cases (Piece.field fields parent).path? <;> rfl
  | .container fields children, parent, _, _, added => by
    have nothing : dataPlaces (place? .container fields parent).toList = [] :=
      dataPlaces_eq_nil fun place member => by rw [sort_of_mem_place? member]; exact nofun
    obtain ⟨middle, _, rest⟩ := addPaths_container added
    rw [places, dataPlaces_append, nothing, List.nil_append, pieces, leaves]
    obtain ⟨rfl, rfl⟩ | ⟨path, place, added⟩ := rest
    · cases pathOf fields parent <;> exact ⟨rfl, rfl⟩
    · rw [place]
      exact dataPlaces_placesOf children added

theorem dataPlaces_placesOf : (items : List Item) → ∀ {parent paths result},
    addAllPaths paths parent items = .ok result →
    (piecesOf parent items).filterMap Piece.path? = (dataPlaces (placesOf parent items)).map (·.path) ∧
      (declarations (leavesOfAll items)).map (·.1.key) = (dataPlaces (placesOf parent items)).map (·.key)
  | [], _, _, _, _ => ⟨rfl, rfl⟩
  | item :: items, _, _, _, added => by
    obtain ⟨middle, first, added⟩ := Fault.of_bind_ok added
    obtain ⟨checked, declared⟩ := dataPlaces_places item first
    obtain ⟨checked', declared'⟩ := dataPlaces_placesOf items added
    rw [placesOf, dataPlaces_append, List.map_append, List.map_append, ← checked, ← checked', ← declared, ← declared',
      piecesOf, leavesOfAll, List.filterMap_append, ← List.map_append, declarations, List.filterMap_append]
    exact ⟨rfl, rfl⟩

end

end Data

end Item

namespace Dependency

/-- The path of a name: the one that is known, or the name itself. -/
def pathIn (paths : Keyed Value) (name : Name) : Value := (Keyed.find? paths name.key).getD (.scalar name.key)

section Nodes

variable {paths : Keyed Value}

theorem declarationOf_path {name : Name} {fields : Fields} {declared : Declared}
    (built : declarationOf paths name fields = .ok declared) : declared.path = pathIn paths declared.name := by
  unfold declarationOf at built
  obtain ⟨_, _, built⟩ := Fault.of_bind_ok built
  obtain ⟨_, _, built⟩ := Fault.of_bind_ok built
  obtain ⟨_, _, built⟩ := Fault.of_bind_ok built
  cases built
  rfl

theorem declareAll_paths {items : List Item} {declared : List Declared}
    (built : declareAll paths [] items = .ok declared) : ∀ entry ∈ declared, entry.path = pathIn paths entry.name := by
  obtain ⟨added, own, rfl⟩ := declareAll_ok items built
  refine List.foldlRecOn added addDeclared
    (motive := fun declared => ∀ entry ∈ declared, entry.path = pathIn paths entry.name)
    (List.forall_mem_nil _) fun declared known entry member => ?_
  obtain ⟨_, _, found⟩ := Fault.exists_of_mapM_ok own member
  -- a further declaration of a name leaves the path of the first one
  exact forall_mem_amend known (fun _ before => before) (declarationOf_path found)

theorem node_path {declared : Declared} {node : Node} (built : declared.node = .ok node) :
    node.id = declared.name ∧ node.path = declared.path := by
  unfold Declared.node at built
  obtain ⟨names, _, built⟩ := Fault.of_bind_ok built
  cases built
  rw [foldl_addDependency]
  exact ⟨rfl, rfl⟩

/-- Nodes that have the paths of their names. -/
def ShowPaths (paths : Keyed Value) (nodes : List Node) : Prop := ∀ node ∈ nodes, node.path = pathIn paths node.id

theorem ShowPaths.tell (reader name : Name) {nodes : List Node} (shown : ShowPaths paths nodes) :
    ShowPaths paths (tell paths reader nodes name) :=
  forall_mem_amend shown (fun node before => by rw [addDependent_eq]; exact before) (by rw [addDependent_eq]; rfl)

theorem ShowPaths.transpose {nodes : List Node} (shown : ShowPaths paths nodes) :
    ShowPaths paths (transpose paths nodes) := by
  refine List.foldlRecOn nodes (tellAll paths) (motive := ShowPaths paths) shown fun told shown reader _ => ?_
  exact List.foldlRecOn reader.dependencies (Dependency.tell paths reader.id) (motive := ShowPaths paths) shown
    fun _ shown name _ => shown.tell reader.id name

/-- All nodes have the paths of their names, those of fields that are not declared as well. -/
theorem Graph.ofForm_pathIn {form : Value} {graph : Graph} (built : ofForm form = .ok graph) :
    ∃ items paths, itemsOf form = .ok items ∧ Item.paths items (.text "") = .ok paths ∧
      ShowPaths paths graph.nodes := by
  unfold ofForm at built
  obtain ⟨items, listed, built⟩ := Fault.of_bind_ok built
  obtain ⟨paths, placed, built⟩ := Fault.of_bind_ok built
  obtain ⟨declared, found, built⟩ := Fault.of_bind_ok built
  obtain ⟨nodes, made, built⟩ := Fault.of_bind_ok built
  cases built
  refine ⟨items, paths, listed, placed, ShowPaths.transpose fun node member => ?_⟩
  obtain ⟨entry, inside, found'⟩ := Fault.exists_of_mapM_ok made member
  obtain ⟨called, path⟩ := node_path found'
  rw [path, called]
  exact declareAll_paths found entry inside

/-- A name that an item declares has a node. -/
theorem Graph.ofForm_contains {form : Value} {graph : Graph} (built : ofForm form = .ok graph) :
    ∃ items, itemsOf form = .ok items ∧ ∀ name,
      ((declarations (Item.leavesOfAll items)).map (·.1)).contains name = true →
        ∃ node, graph.nodes.find? (·.id == name) = some node := by
  obtain ⟨items, nodes, paths, listed, made, ids, reads⟩ := ofForm_ok built
  have told := told_transpose (ids ▸ distinct_eraseDups _) (fun node member => (reads node member).1) paths
  rw [← made] at told
  refine ⟨items, listed, fun name declared => ?_⟩
  have present : (graph.nodes.map (·.id)).contains name = true := by
    rw [told.ids, contains_eraseDups, List.contains_append, ids, contains_eraseDups, declared, Bool.true_or]
  obtain ⟨id, member, same⟩ := List.contains_iff_exists_mem_beq.mp present
  obtain ⟨node, inside, rfl⟩ := List.mem_map.mp member
  exact Option.isSome_iff_exists.mp (List.find?_isSome.mpr ⟨node, inside, BEq.symm same⟩)

/-- The node of a name that a field declares shows the path of the first item that has the name. That is the path
under which the first field of this name is checked if the item is a field, and so it is in forms whose containers and
items without data have names of their own. -/
theorem Graph.ofForm_paths {form : Value} {graph : Graph} (built : ofForm form = .ok graph) :
    ∃ items, itemsOf form = .ok items ∧
      let places := Item.placesOf (.text "") items
      Form.dataPaths form = (Item.dataPlaces places).map (·.path) ∧
        ∀ key field, Item.firstNamed key (Item.dataPlaces places) = some field →
          ∃ node first, graph.nodes.find? (·.id == ⟨key⟩) = some node ∧ Item.firstNamed key places = some first ∧
            node.path = first.path ∧ (first.sort = .data → node.path = field.path) := by
  obtain ⟨items, paths, listed, placed, shown⟩ := ofForm_pathIn built
  obtain ⟨items', listed', present⟩ := ofForm_contains built
  obtain rfl := Except.ok.inj (listed'.symm.trans listed)
  obtain ⟨checked, declared⟩ := Item.dataPlaces_placesOf items' placed
  refine ⟨items', listed, ?_, fun key field found => ?_⟩
  · unfold Form.dataPaths Form.pieces
    rw [listed]
    exact checked
  · obtain ⟨among, same⟩ := Item.firstNamed_eq_some found
    -- the field has declared its name, so there is a node
    have known : ((declarations (Item.leavesOfAll items')).map (·.1)).contains ⟨key⟩ = true := by
      have own : field.key ∈ (declarations (Item.leavesOfAll items')).map (·.1.key) :=
        declared ▸ List.mem_map_of_mem among
      obtain ⟨entry, member, held⟩ := List.mem_map.mp own
      refine List.contains_iff_exists_mem_beq.mpr ⟨entry.1, List.mem_map_of_mem member, ?_⟩
      rw [Name.beq_eq, held, Scalar.coincides_comm]
      exact same
    obtain ⟨node, here⟩ := present ⟨key⟩ known
    obtain ⟨first, earliest⟩ := Item.exists_firstNamed (List.mem_filter.mp among).1 same
    have path : node.path = first.path := by
      have alike : Keyed.find? paths node.id.key = Keyed.find? paths key := by
        have called := List.find?_some (p := fun node : Node => node.id == ⟨key⟩) here
        exact Keyed.find?_congr paths called
      have looked : Keyed.find? paths key = some first.path := by
        rw [Item.addAllPaths_finds items' placed key, earliest]
        rfl
      rw [shown node (List.mem_of_find?_eq_some here), pathIn, alike, looked]
      rfl
    refine ⟨node, first, here, earliest, path, fun data => ?_⟩
    rw [path, Option.some.inj ((Item.firstNamed_dataPlaces earliest data).symm.trans found)]

end Nodes

namespace Graph

def formOf (items : List Value) : Value := .ofFields [("items", .list items)]

def fieldOf (name : String) : Value := .ofFields [("name", .text name)]

def groupOf (name : String) (isLeftOut : Bool) (items : List Value) : Value := .ofFields [("type", .text "group"),
  ("name", .text name), ("excludeFromPath", .bool isLeftOut), ("items", .list items)]

/-- The graph of fields that do not read one another. -/
def unlinked (name path : String) : Graph := ⟨[{ id := ⟨.text name⟩, path := .text path }]⟩

/-- The second field of a name is checked under a path of its own; the graph shows that of the first one. -/
theorem ofForm_paths_phone :
    let form := formOf [groupOf "home" false [fieldOf "phone"], groupOf "work" false [fieldOf "phone"]]
    ofForm form = .ok (unlinked "phone" "home.phone") ∧
      Form.dataPaths form = [.text "home.phone", .text "work.phone"] ∧
      ∃ node, (unlinked "phone" "home.phone").nodes.find? (·.id == ⟨.text "phone"⟩) = some node ∧
        node.path = .text "home.phone" := by
  intro form
  have built : ofForm form = .ok (unlinked "phone" "home.phone") := rfl
  obtain ⟨items, listed, checked, paths⟩ := ofForm_paths built
  cases listed
  obtain ⟨node, first, found, earliest, _, same⟩ :=
    paths (.text "phone") ⟨.text "phone", .text "home.phone", .data⟩ rfl
  cases earliest
  exact ⟨built, checked, node, found, same rfl⟩

/-- A field with the name of the group that it is in, which leaves its name out of paths, and one with the name of a
button: the graph shows the path of the group, which is empty, and that of the button. -/
theorem group_path_for_field :
    let inside := formOf [groupOf "address" true [fieldOf "address"]]
    let button := .ofFields [("type", .text "button"), ("name", .text "send")]
    let after := formOf [button, groupOf "contact" false [fieldOf "send"]]
    (ofForm inside = .ok (unlinked "address" "") ∧ Form.dataPaths inside = [.text "address"]) ∧
      ofForm after = .ok (unlinked "send" "send") ∧ Form.dataPaths after = [.text "contact.send"] :=
  ⟨⟨rfl, rfl⟩, rfl, rfl⟩

end Graph

end Dependency

end FormRules

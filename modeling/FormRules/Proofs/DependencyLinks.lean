import FormRules.Dependency.Extract
import FormRules.Proofs.Agreement
import FormRules.Proofs.Arrows

/-! What the dependency graph of a form consists of: a node for each name that its items declare, with the
names that those items read, and then one for each other name that is read. Each node is told exactly of the
nodes that read it. -/

namespace FormRules

namespace Item

mutual

/-- The fields of the items in an item that hold no others, at any depth. -/
def leaves : Item → List Fields
  | .stray _ => []
  | .untyped _ _ => []
  | .leaf fields => [fields]
  | .container _ children => leavesOfAll children

def leavesOfAll : List Item → List Fields
  | [] => []
  | item :: items => leaves item ++ leavesOfAll items

end

end Item

namespace Dependency

/-- The names that items declare, in order, each with the fields of the item. -/
def declarations (leaves : List Fields) : List (Name × Fields) :=
  leaves.filterMap fun fields =>
    match nameOf? fields with
    | .ok (some name) => some (name, fields)
    | _ => none

/-- The names that the conditions and rules of an item read. -/
def readsOf (fields : Fields) : Except Fault (List Name) := do
  let references ← RuleNode.references true (RuleNode.ofList (← rulesOf fields))
  namesOf (conditional fields ++ references)

section Amend

variable {β : Type} {called : β → Name} {name : Name} {change : β → β} {new : β}

/-- What is known by distinct names is changed in one place or gets a new last item. -/
theorem amend_eq {items : List β} (distinct : Distinct (items.map called)) :
    amend called name change new items =
      if (items.map called).contains name then items.map fun item => if called item == name then change item else item
      else items ++ [new] := by
  induction items with
  | nil => rfl
  | cons item items ih =>
    rw [amend, List.map_cons, List.contains_cons, BEq.comm (a := name)]
    cases here : called item == name with
    | true =>
      have others : items.map (fun other => if called other == name then change other else other) = items := by
        refine (List.map_congr_left fun other inside => if_neg ?_).trans (List.map_id items)
        rw [BEq.congr_right (BEq.symm here), BEq.comm,
          (List.pairwise_cons.mp distinct).1 _ (List.mem_map_of_mem inside)]
        exact Bool.false_ne_true
      rw [if_pos rfl, Bool.true_or, if_pos rfl, List.map_cons, if_pos here, others]
    | false =>
      rw [ih (List.pairwise_cons.mp distinct).2]
      simp only [Bool.false_or, Bool.false_eq_true, if_false, List.map_cons, here]
      split <;> rfl

/-- A change that keeps names adds no name but a new one. -/
theorem map_amend {items : List β} (distinct : Distinct (items.map called))
    (kept : ∀ item, called (change item) = called item) (fresh : called new = name) :
    (amend called name change new items).map called =
      if (items.map called).contains name then items.map called else items.map called ++ [name] := by
  rw [amend_eq distinct]
  split
  · rw [List.map_map]
    refine List.map_congr_left fun item _ => ?_
    rw [Function.comp_apply]
    split
    · exact kept item
    · rfl
  · rw [List.map_append, List.map_singleton, fresh]

/-- Where an item comes from: it is an old one, a changed one or the new one. -/
theorem mem_amend {items : List β} (distinct : Distinct (items.map called)) {item : β}
    (member : item ∈ amend called name change new items) :
    item ∈ items ∧ (called item == name) = false ∨
      (∃ old ∈ items, (called old == name) = true ∧ item = change old) ∨
      (items.map called).contains name = false ∧ item = new := by
  rw [amend_eq distinct] at member
  split at member
  next =>
    obtain ⟨old, inside, rfl⟩ := List.mem_map.mp member
    cases here : called old == name with
    | true => exact .inr (.inl ⟨old, inside, here, if_pos rfl⟩)
    | false => exact .inl ⟨inside, here⟩
  next absent =>
    obtain old | fresh := List.mem_append.mp member
    · refine .inl ⟨old, Bool.eq_false_iff.mpr fun here => absent ?_⟩
      exact List.contains_iff_exists_mem_beq.mpr ⟨_, List.mem_map_of_mem old, BEq.symm here⟩
    · exact .inr (.inr ⟨Bool.eq_false_iff.mpr absent, List.mem_singleton.mp fresh⟩)

theorem flatMap_amend {γ : Type} {held : β → List γ} (kept : ∀ item, held (change item) = held item)
    (empty : held new = []) (items : List β) : (amend called name change new items).flatMap held = items.flatMap held := by
  induction items with
  | nil => simp [amend, empty]
  | cons item items ih =>
    unfold amend
    split
    · rw [List.flatMap_cons, kept, List.flatMap_cons]
    · rw [List.flatMap_cons, ih, List.flatMap_cons]

end Amend

section Declared

/-- What is known of each name after some declarations. -/
structure Gathered (added declared : List Declared) : Prop where
  names : declared.map (·.name) = (added.map (·.name)).eraseDups
  references : ∀ entry ∈ declared,
    entry.references = (added.filter (·.name == entry.name)).flatMap (·.references)

theorem Gathered.addDeclared {added declared : List Declared} (gathered : Gathered added declared)
    (more : Declared) : Gathered (added ++ [more]) (addDeclared declared more) := by
  have distinct : Distinct (declared.map (·.name)) := gathered.names ▸ distinct_eraseDups _
  constructor
  · rw [List.map_append, List.map_singleton, eraseDups_concat, ← gathered.names, ← contains_eraseDups,
      ← gathered.names]
    exact map_amend distinct (fun _ => rfl) rfl
  · intro entry member
    rw [List.filter_append, List.flatMap_append]
    obtain ⟨old, other⟩ | ⟨old, inside, same, rfl⟩ | ⟨absent, rfl⟩ := mem_amend distinct member
    · rw [BEq.comm] at other
      simp [gathered.references entry old, other]
    · rw [BEq.comm] at same
      simp [gathered.references old inside, Declared.add, same]
    · have none : added.filter (·.name == entry.name) = [] := by
        refine List.filter_eq_nil_iff.mpr fun first member same => Bool.eq_false_iff.mp absent ?_
        rw [gathered.names, contains_eraseDups]
        exact List.contains_iff_exists_mem_beq.mpr ⟨_, List.mem_map_of_mem member, BEq.symm same⟩
      simp [none]

theorem gathered_foldl (more : List Declared) {added declared : List Declared} (gathered : Gathered added declared) :
    Gathered (added ++ more) (more.foldl Dependency.addDeclared declared) := by
  induction more generalizing added declared with
  | nil => rwa [List.append_nil]
  | cons first more ih =>
    rw [List.append_cons]
    exact ih (gathered.addDeclared first)

variable {paths : Keyed Value}

theorem declarationOf_ok {name : Name} {fields : Fields} {declared : Declared}
    (built : declarationOf paths name fields = .ok declared) :
    declared.name = name ∧ readsOf fields = namesOf declared.references := by
  unfold declarationOf at built
  obtain ⟨rules, given, built⟩ := Fault.of_bind_ok built
  obtain ⟨leaves, _, built⟩ := Fault.of_bind_ok built
  obtain ⟨references, found, built⟩ := Fault.of_bind_ok built
  cases built
  refine ⟨rfl, ?_⟩
  unfold readsOf
  rw [given]
  show (RuleNode.references true (RuleNode.ofList rules) >>= _) = _
  rw [found]
  rfl

theorem namesOf_append {first second : List Value} {names : List Name}
    (built : namesOf (first ++ second) = .ok names) :
    ∃ front rest, namesOf first = .ok front ∧ namesOf second = .ok rest ∧ names = front ++ rest := by
  unfold namesOf at built ⊢
  rw [List.mapM_append] at built
  obtain ⟨front, before, built⟩ := Fault.of_bind_ok built
  obtain ⟨rest, after, built⟩ := Fault.of_bind_ok built
  cases built
  exact ⟨front, rest, before, after, rfl⟩

/-- The names that declarations of a name read come from the items that declare it. -/
theorem reads_of_namesOf {own : List (Name × Fields)} {added : List Declared}
    (built : own.mapM (fun entry => declarationOf paths entry.1 entry.2) = .ok added) {name : Name}
    {names : List Name} (read : namesOf ((added.filter (·.name == name)).flatMap (·.references)) = .ok names) :
    ∃ reads, (own.filter (·.1 == name)).mapM (readsOf ·.2) = .ok reads ∧ names = reads.flatten := by
  induction own generalizing added names with
  | nil =>
    cases built
    cases read
    exact ⟨[], rfl, rfl⟩
  | cons entry own ih =>
    rw [List.mapM_cons] at built
    obtain ⟨first, here, built⟩ := Fault.of_bind_ok built
    obtain ⟨rest, later, built⟩ := Fault.of_bind_ok built
    cases built
    obtain ⟨called, reads⟩ := declarationOf_ok here
    cases same : entry.1 == name with
    | false =>
      rw [List.filter_cons_of_neg (by simp [called, same])] at read
      rw [List.filter_cons_of_neg (by simp [same])]
      exact ih later read
    | true =>
      rw [List.filter_cons_of_pos (by simp [called, same]), List.flatMap_cons] at read
      obtain ⟨front, back, before, after, rfl⟩ := namesOf_append read
      obtain ⟨others, found, rfl⟩ := ih later after
      refine ⟨front :: others, ?_, rfl⟩
      rw [List.filter_cons_of_pos (by simp [same]), List.mapM_cons, reads, before, found]
      rfl

mutual

theorem declare_ok {declared : List Declared} (item : Item) {result : List Declared}
    (built : declare paths declared item = .ok result) :
    ∃ added, (declarations item.leaves).mapM (fun entry => declarationOf paths entry.1 entry.2) = .ok added ∧
      result = added.foldl Dependency.addDeclared declared := by
  cases item with
  | stray kind => cases built
  | untyped fields fault => cases built
  | leaf fields =>
    unfold declare declareField at built
    obtain ⟨name?, named, built⟩ := Fault.of_bind_ok built
    cases name? with
    | none =>
      cases built
      exact ⟨[], by simp [declarations, Item.leaves, named, pure, Except.pure], rfl⟩
    | some name =>
      obtain ⟨added, here, built⟩ := Fault.of_bind_ok built
      cases built
      refine ⟨[added], ?_, rfl⟩
      simp only [declarations, Item.leaves, List.filterMap_cons, List.filterMap_nil, named]
      rw [List.mapM_cons, here]
      rfl
  | container fields children =>
    unfold declare at built
    rw [Item.leaves]
    exact declareAll_ok children built

/-- Items add what they declare, one after the other. -/
theorem declareAll_ok {declared : List Declared} (items : List Item) {result : List Declared}
    (built : declareAll paths declared items = .ok result) :
    ∃ added, (declarations (Item.leavesOfAll items)).mapM (fun entry => declarationOf paths entry.1 entry.2) = .ok added ∧
      result = added.foldl Dependency.addDeclared declared := by
  cases items with
  | nil =>
    cases built
    exact ⟨[], rfl, rfl⟩
  | cons item items =>
    unfold declareAll at built
    obtain ⟨middle, first, built⟩ := Fault.of_bind_ok built
    obtain ⟨added, here, rfl⟩ := declare_ok item first
    obtain ⟨more, later, rfl⟩ := declareAll_ok items built
    refine ⟨added ++ more, ?_, (List.foldl_append ..).symm⟩
    rw [Item.leavesOfAll, declarations, List.filterMap_append, List.mapM_append]
    unfold declarations at here later
    rw [here, later]
    rfl

end

end Declared

section Nodes

theorem addDependent_eq (node : Node) (reader : Name) :
    node.addDependent reader = { node with dependents := addNew node.dependents reader } := by
  unfold Node.addDependent addNew
  split <;> rfl

theorem foldl_addDependency (node : Node) (names : List Name) :
    names.foldl Node.addDependency node =
      { node with dependencies := (names.filter (!·.equal node.id)).foldl addNew node.dependencies } := by
  induction names generalizing node with
  | nil => rfl
  | cons name names ih =>
    rw [List.foldl_cons, ih]
    unfold Node.addDependency
    cases own : name.equal node.id with
    | true => simp [own]
    | false =>
      rw [Bool.false_or, List.filter_cons_of_pos (by simp [own]), List.foldl_cons, addNew]
      split <;> rfl

/-- The node of what is declared under a name reads the names that it refers to, but not those equal to its own. -/
theorem node_ok {declared : Declared} {node : Node} (built : declared.node = .ok node) :
    ∃ names, namesOf declared.references = .ok names ∧ node.id = declared.name ∧ node.dependents = [] ∧
      node.dependencies = (names.filter (!·.equal node.id)).eraseDups := by
  unfold Declared.node at built
  obtain ⟨names, found, built⟩ := Fault.of_bind_ok built
  cases built
  rw [foldl_addDependency]
  exact ⟨names, found, rfl, rfl, (eraseDups_eq_foldl _).symm⟩

/-- Who reads whom. -/
def pairs (nodes : List Node) : List (Name × Name) :=
  nodes.flatMap fun node => node.dependencies.map (node.id, ·)

theorem mem_pairs {nodes : List Node} {reader name : Name} :
    (reader, name) ∈ pairs nodes ↔ ∃ node ∈ nodes, node.id = reader ∧ name ∈ node.dependencies := by
  simp only [pairs, List.mem_flatMap, List.mem_map, Prod.mk.injEq]
  constructor
  · rintro ⟨node, member, dependency, listed, rfl, rfl⟩
    exact ⟨node, member, rfl, listed⟩
  · rintro ⟨node, member, rfl, listed⟩
    exact ⟨node, member, name, listed, rfl, rfl⟩

theorem map_snd_pairs (nodes : List Node) : (pairs nodes).map (·.2) = nodes.flatMap (·.dependencies) := by
  simp [pairs, List.map_flatMap]

/-- What is known of each node when some have been told who reads them. -/
structure Told (nodes : List Node) (pairs : List (Name × Name)) (told : List Node) : Prop where
  ids : told.map (·.id) = (nodes.map (·.id) ++ pairs.map (·.2)).eraseDups
  dependents : ∀ node ∈ told, node.dependents = ((pairs.filter (·.2 == node.id)).map (·.1)).eraseDups
  dependencies : told.flatMap (·.dependencies) = nodes.flatMap (·.dependencies)
  kept : ∀ node ∈ told, { node with dependents := [] } ∈ nodes ∨
    (nodes.map (·.id)).contains node.id = false ∧ node.dependencies = [] ∧ node.rules = [] ∧ node.computed = []

theorem Told.tell {nodes told : List Node} {pairs : List (Name × Name)} (sofar : Told nodes pairs told)
    (paths : Keyed Value) (reader name : Name) : Told nodes (pairs ++ [(reader, name)]) (tell paths reader told name) := by
  have distinct : Distinct (told.map (·.id)) := sofar.ids ▸ distinct_eraseDups _
  have one (id : Name) : ((pairs ++ [(reader, name)]).filter (·.2 == id)).map (·.1) =
      (pairs.filter (·.2 == id)).map (·.1) ++ if name == id then [reader] else [] := by
    rw [List.filter_append, List.map_append]
    refine congrArg _ ?_
    cases here : name == id <;> simp [here]
  constructor
  · rw [List.map_append, List.map_singleton, ← List.append_assoc, eraseDups_concat, ← sofar.ids,
      ← contains_eraseDups, ← sofar.ids]
    exact map_amend distinct (fun node => by rw [addDependent_eq]) (by rw [addDependent_eq]; rfl)
  · intro node member
    rw [one]
    obtain ⟨old, other⟩ | ⟨old, inside, same, rfl⟩ | ⟨absent, rfl⟩ := mem_amend distinct member
    · rw [BEq.comm] at other
      simp [sofar.dependents node old, other]
    · rw [BEq.comm] at same
      rw [addDependent_eq, addNew, sofar.dependents old inside, same, if_pos rfl, eraseDups_concat, contains_eraseDups]
    · have none : pairs.filter (·.2 == name) = [] := by
        refine List.filter_eq_nil_iff.mpr fun pair member same => Bool.eq_false_iff.mp absent ?_
        rw [sofar.ids, contains_eraseDups, List.contains_append, Bool.or_eq_true]
        exact .inr (List.contains_iff_exists_mem_beq.mpr ⟨_, List.mem_map_of_mem member, BEq.symm same⟩)
      simp [addDependent_eq, addNew, stub, none, List.eraseDups_cons]
  · refine (flatMap_amend (fun node => ?_) ?_ told).trans sofar.dependencies
    · rw [addDependent_eq]
    · rw [addDependent_eq]
      rfl
  · intro node member
    obtain ⟨old, _⟩ | ⟨old, inside, _, rfl⟩ | ⟨absent, rfl⟩ := mem_amend distinct member
    · exact sofar.kept node old
    · rw [addDependent_eq]
      exact sofar.kept old inside
    · rw [sofar.ids, contains_eraseDups, List.contains_append, Bool.or_eq_false_iff] at absent
      rw [addDependent_eq]
      exact .inr ⟨absent.1, rfl, rfl, rfl⟩

theorem told_foldl (more : List (Name × Name)) (paths : Keyed Value) {nodes told : List Node}
    {pairs : List (Name × Name)} (sofar : Told nodes pairs told) :
    Told nodes (pairs ++ more) (more.foldl (fun told pair => Dependency.tell paths pair.1 told pair.2) told) := by
  induction more generalizing pairs told with
  | nil => rwa [List.append_nil]
  | cons pair more ih =>
    rw [List.append_cons]
    exact ih (sofar.tell paths pair.1 pair.2)

theorem told_transpose {nodes : List Node} (distinct : Distinct (nodes.map (·.id)))
    (untold : ∀ node ∈ nodes, node.dependents = []) (paths : Keyed Value) :
    Told nodes (pairs nodes) (transpose paths nodes) := by
  have start : Told nodes [] nodes := by
    constructor
    · rw [List.map_nil, List.append_nil, distinct.eraseDups_eq]
    · exact untold
    · rfl
    · refine fun node member => .inl ?_
      have same : { node with dependents := [] } = node := by rw [← untold node member]
      rwa [same]
  have pass : transpose paths nodes =
      (pairs nodes).foldl (fun told pair => Dependency.tell paths pair.1 told pair.2) nodes := by
    unfold transpose pairs
    rw [List.foldl_flatMap]
    simp only [List.foldl_map]
    rfl
  exact pass ▸ told_foldl (pairs nodes) paths start

theorem Told.contains_dependents {nodes told : List Node} (all : Told nodes (pairs nodes) told) {node : Node}
    (member : node ∈ told) {name : Name} :
    node.dependents.contains name = true ↔
      ∃ reader ∈ nodes, (name == reader.id) = true ∧ reader.dependencies.contains node.id = true := by
  rw [all.dependents node member, contains_eraseDups, List.contains_iff_exists_mem_beq]
  constructor
  · rintro ⟨other, listed, same⟩
    obtain ⟨pair, among, rfl⟩ := List.mem_map.mp listed
    obtain ⟨among, equal⟩ := List.mem_filter.mp among
    obtain ⟨reader, inside, called, reads⟩ := mem_pairs.mp among
    exact ⟨reader, inside, called ▸ same, List.contains_iff_exists_mem_beq.mpr ⟨pair.2, reads, BEq.symm equal⟩⟩
  · rintro ⟨reader, inside, same, reads⟩
    obtain ⟨dependency, listed, equal⟩ := List.contains_iff_exists_mem_beq.mp reads
    have pair : (reader.id, dependency) ∈ pairs nodes := mem_pairs.mpr ⟨reader, inside, rfl, listed⟩
    exact ⟨reader.id, List.mem_map.mpr ⟨_, List.mem_filter.mpr ⟨pair, BEq.symm equal⟩, rfl⟩, same⟩

/-- Nodes that are told of all that read them are linked. -/
theorem Told.linked {nodes told : List Node} (all : Told nodes (pairs nodes) told)
    (distinct : Distinct (nodes.map (·.id)))
    (filtered : ∀ node ∈ nodes, ∃ names : List Name, node.dependencies = (names.filter (!·.equal node.id)).eraseDups) :
    Digraph.Linked (told.map Node.vertex) := by
  have names : Digraph.names (told.map Node.vertex) = told.map (·.id) := List.map_map ..
  -- A node that has dependencies is one of those that were there before.
  have origin {node : Node} (member : node ∈ told) {name : Name} (listed : name ∈ node.dependencies) :
      { node with dependents := [] } ∈ nodes := by
    refine (all.kept node member).resolve_right fun ⟨_, empty, _⟩ => ?_
    rw [empty] at listed
    cases listed
  have reads {node : Node} (member : node ∈ told) :
      ∃ names : List Name, node.dependencies = (names.filter (!·.equal node.id)).eraseDups := by
    obtain old | ⟨_, empty, _⟩ := all.kept node member
    · exact filtered { node with dependents := [] } old
    · exact ⟨[], empty⟩
  constructor
  case distinct => exact names ▸ all.ids ▸ distinct_eraseDups _
  case known =>
    intro vertex member target listed
    obtain ⟨node, inside, rfl⟩ := List.mem_map.mp member
    have pair : (node.id, target) ∈ pairs nodes := mem_pairs.mpr ⟨_, origin inside listed, rfl, listed⟩
    rw [names, all.ids, contains_eraseDups, List.contains_append, Bool.or_eq_true]
    exact .inr (List.contains_iff_exists_mem_beq.mpr ⟨target, List.mem_map_of_mem pair, BEq.rfl⟩)
  case targets =>
    intro vertex member
    obtain ⟨node, inside, rfl⟩ := List.mem_map.mp member
    obtain ⟨names, reads⟩ := reads inside
    show Distinct node.dependencies
    exact reads ▸ distinct_eraseDups _
  case sources =>
    intro vertex member
    obtain ⟨node, inside, rfl⟩ := List.mem_map.mp member
    show Distinct node.dependents
    exact all.dependents node inside ▸ distinct_eraseDups _
  case readers =>
    intro vertex member source listed
    obtain ⟨node, inside, rfl⟩ := List.mem_map.mp member
    have told : node.dependents.contains source = true :=
      List.contains_iff_exists_mem_beq.mpr ⟨source, listed, BEq.rfl⟩
    obtain ⟨reader, among, reads, _⟩ := (all.contains_dependents inside).mp told
    rw [names, all.ids, contains_eraseDups, List.contains_append, Bool.or_eq_true]
    exact .inl (List.contains_iff_exists_mem_beq.mpr ⟨_, List.mem_map_of_mem among, reads⟩)
  case transposed =>
    intro first before second after
    obtain ⟨reader, inside, rfl⟩ := List.mem_map.mp before
    obtain ⟨node, among, rfl⟩ := List.mem_map.mp after
    show reader.dependencies.contains node.id = true ↔ node.dependents.contains reader.id = true
    constructor
    · intro reads
      obtain ⟨name, listed, same⟩ := List.contains_iff_exists_mem_beq.mp reads
      exact (all.contains_dependents among).mpr ⟨_, origin inside listed, BEq.rfl, reads⟩
    · intro told
      obtain ⟨old, member, same, reads⟩ := (all.contains_dependents among).mp told
      -- Names are distinct, so the node that reads is the one of this name.
      have old := distinct.find?_eq member (BEq.symm same)
      obtain kept | ⟨absent, _⟩ := all.kept reader inside
      · rw [distinct.find?_eq kept BEq.rfl, Option.some.injEq] at old
        rwa [← old] at reads
      · have known := List.contains_iff_exists_mem_beq.mpr ⟨_, List.mem_map_of_mem member, same⟩
        exact (Bool.false_ne_true (absent.symm.trans known)).elim

end Nodes

namespace Graph

/-- How a graph comes from a form. -/
theorem ofForm_ok {form : Value} {graph : Graph} (built : ofForm form = .ok graph) :
    ∃ items nodes paths, itemsOf form = .ok items ∧ graph.nodes = transpose paths nodes ∧
      nodes.map (·.id) = ((declarations (Item.leavesOfAll items)).map (·.1)).eraseDups ∧
      ∀ node ∈ nodes, node.dependents = [] ∧
        ∃ reads, ((declarations (Item.leavesOfAll items)).filter (·.1 == node.id)).mapM (readsOf ·.2) = .ok reads ∧
          node.dependencies = (reads.flatten.filter (!·.equal node.id)).eraseDups := by
  unfold ofForm at built
  obtain ⟨items, listed, built⟩ := Fault.of_bind_ok built
  obtain ⟨paths, _, built⟩ := Fault.of_bind_ok built
  obtain ⟨declared, found, built⟩ := Fault.of_bind_ok built
  obtain ⟨nodes, made, built⟩ := Fault.of_bind_ok built
  cases built
  obtain ⟨added, own, rfl⟩ := declareAll_ok items found
  have gathered : Gathered added (added.foldl addDeclared []) := by
    have start : Gathered [] [] := ⟨rfl, fun _ member => nomatch member⟩
    exact gathered_foldl added start
  refine ⟨items, nodes, paths, listed, rfl, ?_, ?_⟩
  · have ids : nodes.map (·.id) = (added.foldl addDeclared []).map (·.name) :=
      Fault.map_of_mapM_ok (fun _ _ found => (node_ok found).choose_spec.2.1) made
    have names : added.map (·.name) = (declarations (Item.leavesOfAll items)).map (·.1) :=
      Fault.map_of_mapM_ok (fun _ _ found => (declarationOf_ok found).1) own
    rw [ids, gathered.names, names]
  · intro node member
    obtain ⟨entry, inside, found⟩ := Fault.exists_of_mapM_ok made member
    obtain ⟨names, read, called, untold, dependencies⟩ := node_ok found
    rw [gathered.references entry inside, ← called] at read
    obtain ⟨reads, found, rfl⟩ := reads_of_namesOf own read
    exact ⟨untold, reads, found, dependencies⟩

theorem linked_of_ofForm {form : Value} {graph : Graph} (built : ofForm form = .ok graph) :
    graph.arrows.Linked := by
  obtain ⟨items, nodes, paths, _, made, ids, reads⟩ := ofForm_ok built
  have distinct : Distinct (nodes.map (·.id)) := ids ▸ distinct_eraseDups _
  have told := told_transpose distinct (fun node member => (reads node member).1) paths
  unfold arrows
  rw [made]
  exact told.linked distinct fun node member => (reads node member).2.imp' List.flatten fun _ found => found.2

/-- The names of a graph come from the items of its form, and so does what is read under each of them. -/
theorem ofForm_reads {form : Value} {graph : Graph} (built : ofForm form = .ok graph) :
    ∃ items, itemsOf form = .ok items ∧
      let own := declarations (Item.leavesOfAll items)
      let names := own.map (·.1)
      graph.ids = names.eraseDups ++
          ((graph.nodes.flatMap (·.dependencies)).filter (!names.contains ·)).eraseDups ∧
        (∀ node ∈ graph.nodes, names.contains node.id = true →
          ∃ reads, (own.filter (·.1 == node.id)).mapM (readsOf ·.2) = .ok reads ∧
            node.dependencies = (reads.flatten.filter (!·.equal node.id)).eraseDups) ∧
        ∀ node ∈ graph.nodes, names.contains node.id = false →
          node.dependencies = [] ∧ node.rules = [] ∧ node.computed = [] := by
  obtain ⟨items, nodes, paths, listed, made, ids, reads⟩ := ofForm_ok built
  have told := told_transpose (ids ▸ distinct_eraseDups _) (fun node member => (reads node member).1) paths
  rw [← made] at told
  refine ⟨items, listed, ?_, ?_, ?_⟩
  · unfold Graph.ids
    rw [told.ids, ids, map_snd_pairs, ← told.dependencies, eraseDups_append, (distinct_eraseDups _).eraseDups_eq]
    simp only [contains_eraseDups]
  · intro node member known
    obtain old | ⟨absent, _⟩ := told.kept node member
    · exact (reads _ old).2
    · rw [ids, contains_eraseDups] at absent
      exact (Bool.false_ne_true (absent.symm.trans known)).elim
  · intro node member unknown
    obtain old | ⟨_, empty⟩ := told.kept node member
    · have known := List.contains_iff_exists_mem_beq.mpr ⟨_, List.mem_map_of_mem (f := (·.id)) old, BEq.rfl⟩
      rw [ids, contains_eraseDups] at known
      exact (Bool.false_ne_true (unknown.symm.trans known)).elim
    · exact empty

/-- A node that depends on itself is named by a NaN, which is the only name that is not equal to itself. -/
theorem isNaN_of_contains {names : List Name} {id : Name}
    (own : (names.filter (!·.equal id)).eraseDups.contains id = true) : id.key.isNaN = true := by
  rw [contains_eraseDups, List.contains_iff_exists_mem_beq] at own
  obtain ⟨name, listed, one⟩ := own
  have unequal : name.equal id = false := by simpa using (List.mem_filter.mp listed).2
  by_contra known
  rw [Name.equal_of_beq (BEq.symm one) (Bool.eq_false_iff.mpr known)] at unequal
  cases unequal

/-- The graph of a form has a node for each name that an item declares, in order, with the names that the items
of this name read, and after them one for each other name that is read. Only a field that is named by a NaN can depend
on itself. Nodes are told of all that read them. -/
theorem ofForm_nodes {form : Value} {graph : Graph} (built : ofForm form = .ok graph) :
    ∃ items, itemsOf form = .ok items ∧
      let own := declarations (Item.leavesOfAll items)
      let names := own.map (·.1)
      graph.ids = names.eraseDups ++
          ((graph.nodes.flatMap (·.dependencies)).filter (!names.contains ·)).eraseDups ∧
        (∀ node ∈ graph.nodes, names.contains node.id = true →
          ∃ reads, (own.filter (·.1 == node.id)).mapM (readsOf ·.2) = .ok reads ∧
            node.dependencies = (reads.flatten.filter (!·.equal node.id)).eraseDups) ∧
        (∀ node ∈ graph.nodes, names.contains node.id = false →
          node.dependencies = [] ∧ node.rules = [] ∧ node.computed = []) ∧
        (∀ node ∈ graph.nodes, ∀ name ∈ node.dependencies, graph.ids.contains name = true) ∧
        (∀ node ∈ graph.nodes, (node.dependencies.contains node.id = true → node.id.key.isNaN = true) ∧
          Distinct node.dependencies ∧ Distinct node.dependents) ∧
        ∀ first ∈ graph.nodes, ∀ second ∈ graph.nodes,
          first.dependencies.contains second.id = true ↔ second.dependents.contains first.id = true := by
  have linked := linked_of_ofForm built
  have vertex {node : Node} (member : node ∈ graph.nodes) : node.vertex ∈ graph.arrows := List.mem_map_of_mem member
  obtain ⟨items, listed, ids, declared, undeclared⟩ := ofForm_reads built
  refine ⟨items, listed, ids, declared, undeclared, ?_, ?_, ?_⟩
  · intro node member name listed
    rw [ids_eq_names]
    exact linked.known _ (vertex member) name listed
  · intro node member
    refine ⟨fun own => ?_, linked.targets _ (vertex member), linked.sources _ (vertex member)⟩
    cases known : ((declarations (Item.leavesOfAll items)).map (·.1)).contains node.id with
    | true =>
      obtain ⟨reads, _, shape⟩ := declared node member known
      exact isNaN_of_contains (shape ▸ own)
    | false =>
      rw [(undeclared node member known).1] at own
      cases own
  · exact fun first before second after => linked.transposed _ (vertex before) _ (vertex after)

/-- A field that is declared in a group and again after it, and reads itself and a field that is not declared. -/
theorem ofForm_nodes_total :
    let field (name read : String) : Value := .ofFields [("name", .text name),
      ("visibleIf", .ofFields [("field", .text read), ("operator", .text "==")])]
    let form : Value := .ofFields [("items", .list [
      .ofFields [("type", .text "group"), ("items", .list [field "total" "rate"])],
      field "net" "total", field "total" "total", field "total" "net"])]
    let total : Name := ⟨.text "total"⟩
    let net : Name := ⟨.text "net"⟩
    let rate : Name := ⟨.text "rate"⟩
    let graph : Graph := ⟨[⟨total, .text "total", [rate, net], [net], [], []⟩,
      ⟨net, .text "net", [total], [total], [], []⟩, ⟨rate, .text "rate", [], [total], [], []⟩]⟩
    ofForm form = .ok graph ∧ ∃ items, itemsOf form = .ok items ∧
      graph.ids = ((declarations (Item.leavesOfAll items)).map (·.1)).eraseDups ++ [rate] ∧
      ∃ reads, ((declarations (Item.leavesOfAll items)).filter (·.1 == total)).mapM (readsOf ·.2) = .ok reads ∧
        [rate, net] = (reads.flatten.filter (!·.equal total)).eraseDups := by
  intro field form total net rate graph
  have built : ofForm form = .ok graph := rfl
  obtain ⟨items, listed, ids, reads, _⟩ := ofForm_nodes built
  cases listed
  exact ⟨built, _, rfl, ids, reads ⟨total, .text "total", [rate, net], [net], [], []⟩ (.head _) rfl⟩

/-- A field that is named by a NaN and compared with itself depends on itself. -/
theorem ofForm_nodes_nan :
    let nan : Scalar := .number (.float .nan)
    let compared : Value := .ofFields [("type", .text "compare"), ("comparisonTarget", .scalar nan)]
    let form : Value := .ofFields [("items", .list [
      .ofFields [("name", .scalar nan), ("validationRules", .list [compared])]])]
    let node : Node := ⟨⟨nan⟩, .scalar nan, [⟨nan⟩], [⟨nan⟩], [compared], []⟩
    ofForm form = .ok ⟨[node]⟩ ∧ node.dependencies.contains node.id = true :=
  ⟨rfl, rfl⟩

end Graph

end Dependency

end FormRules

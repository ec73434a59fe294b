import FormRules.Dependency.Extract
import FormRules.Pass.Form
import FormRules.Proofs.AcceptedRules

/-! What a form is like whose structure has been checked. Its items can be told apart and have paths, its rules
are known ones, and the graph of what its fields read can be extracted. -/

namespace FormRules

namespace Form

theorem inField_nil {fields : Fields} {name : String} {check : Place → Value → List Complaint} {place : Place} :
    inField fields name check place = [] ↔
      ∀ value, Keyed.find? fields (.text name) = some value → check (name :: place) value = [] := by
  unfold inField
  cases Keyed.find? fields (.text name) <;> simp

theorem expect_nil {shape : Shape} {place : Place} {value : Value} :
    expect shape place value = [] ↔ shape.fits value = true := by
  unfold expect complain
  split <;> simp_all

theorem expectAny_nil {passes : Value → Bool} {place : Place} {value : Value} :
    expectAny passes place value = [] ↔ passes value = true := by
  unfold expectAny complain
  split <;> simp_all

theorem of_inItems {check : Place → Value → List Complaint} {place : Place} {index : Nat} {items : List Value}
    (clean : inItems check place index items = []) : ∀ item ∈ items, ∃ place, check place item = [] := by
  induction items generalizing index with
  | nil => exact List.forall_mem_nil _
  | cons item items ih =>
    obtain ⟨first, rest⟩ := List.append_eq_nil_iff.mp clean
    exact List.forall_mem_cons.mpr ⟨⟨_, first⟩, ih rest⟩

theorem of_checkItems {index : Nat} {items : List Value} {place : Place} (clean : checkItems index items place = []) :
    ∀ item ∈ items, ∃ place, checkItem item place = [] := by
  induction items generalizing index with
  | nil => exact List.forall_mem_nil _
  | cons item items ih =>
    obtain ⟨first, rest⟩ := List.append_eq_nil_iff.mp clean
    exact List.forall_mem_cons.mpr ⟨⟨_, first⟩, ih rest⟩

/-- What has to be a list is one, and its members are in order. -/
theorem of_inList {check : Place → Value → List Complaint} {place : Place} {value : Value}
    (clean : inList check place value = []) :
    ∃ items, value = .list items ∧ ∀ item ∈ items, ∃ place, check place item = [] := by
  unfold inList at clean
  split at clean
  next items => exact ⟨items, rfl, of_inItems clean⟩
  next other =>
    have fits := expect_nil.mp clean
    unfold Shape.fits at fits
    split at fits <;> first | exact absurd rfl (other _) | simp_all

/-- What has to be an object is one, and its fields are in order. -/
theorem of_inObject {check : Fields → List Complaint} {place : Place} {value : Value}
    (clean : inObject check place value = []) : ∃ fields, value = .object fields ∧ check fields = [] := by
  unfold inObject at clean
  split at clean
  next fields => exact ⟨fields, rfl, clean⟩
  next other =>
    have fits := expect_nil.mp clean
    unfold Shape.fits at fits
    split at fits <;> first | exact absurd rfl (other _) | simp_all

theorem isMessage_of_inField {fields : Fields} {name : String} {place : Place}
    (clean : inField fields name (expect .text) place = []) : (Fields.get fields name).IsMessage :=
  isMessage_of_allows (allows_iff.mpr fun value found => expect_nil.mp (inField_nil.mp clean value found))

/-- What a form lists under a name, or nothing, is a list of members that are in order. -/
theorem listed_of_inField {fields : Fields} {name : String} {check : Place → Value → List Complaint} {place : Place}
    (clean : inField fields name (inList check) place = []) :
    Yields ((Fields.get fields name).orElse (.list [])).items fun items =>
      ∀ item ∈ items, ∃ place, check place item = [] := by
  have given (value : Value) (found : Keyed.find? fields (.text name) = some value) :
      ∃ items, value.items = .ok items ∧ ∀ item ∈ items, ∃ place, check place item = [] := by
    obtain ⟨items, rfl, all⟩ := of_inList (inField_nil.mp clean value found)
    exact ⟨items, rfl, all⟩
  exact Fields.get_orElse given ⟨[], rfl, List.forall_mem_nil _⟩

/-- What is known of the fields of an item. -/
structure SoundItem (fields : Fields) : Prop where
  name : (Fields.get fields "name").IsMessage
  dataField : (Fields.get fields "dataField").IsMessage
  type : (Fields.get fields "type").IsMessage
  rules : Yields (Dependency.rulesOf fields) fun rules => ∀ node ∈ RuleNode.ofList rules, node.Accepted

theorem ofRules_of_rulesOf {fields : Fields} {rules : List Value} (given : Dependency.rulesOf fields = .ok rules) :
    RuleNode.ofRules ((Fields.get fields "validationRules").orElse (.list [])) = .ok (RuleNode.ofList rules) := by
  unfold Dependency.rulesOf at given
  unfold RuleNode.ofRules
  rw [given]
  rfl

theorem soundItem_of_itemComplaints {fields : Fields} {held : Keyed Held} {place : Place}
    (clean : itemComplaints fields held place = []) : SoundItem fields := by
  obtain ⟨rest, rules⟩ := List.append_eq_nil_iff.mp clean
  obtain ⟨head, _⟩ := List.append_eq_nil_iff.mp rest
  obtain ⟨texts, _⟩ := List.append_eq_nil_iff.mp (List.append_eq_nil_iff.mp head).1
  have named (name : String) (member : name ∈ ["name", "dataField", "type"]) : (Fields.get fields name).IsMessage :=
    isMessage_of_inField (List.flatMap_eq_nil_iff.mp texts name member)
  refine ⟨named _ (by simp), named _ (by simp), named _ (by simp), ?_⟩
  refine (listed_of_inField rules).weaken fun items all => RuleNode.accepted_ofList items fun item member => ?_
  obtain ⟨_, clean⟩ := all item member
  exact expectAny_nil.mp clean

end Form

namespace Item

/-- Items that the check of their structure lets through. -/
inductive Accepted : Item → Prop where
  | container {fields : Fields} {children : List Item} (sound : Form.SoundItem fields)
      (members : ∀ child ∈ children, Accepted child) : Accepted (.container fields children)
  | leaf {fields : Fields} (sound : Form.SoundItem fields) : Accepted (.leaf fields)

theorem sort_yields {fields : Fields} (sound : Form.SoundItem fields) : Yields (ItemSort.ofFields fields) fun _ => True := by
  have named := sound.type
  unfold ItemSort.ofFields
  cases shape : Fields.get fields "type" with
  | scalar key => cases key <;> exact .ok trivial
  | list | object | handle =>
    rw [shape] at named
    cases named

/-- Items that are accepted if a check of them has no complaints. -/
def AcceptedBy (items : List Item) (check : Form.Held) : Prop :=
  ∀ place, check place = [] → ∀ item ∈ items, item.Accepted

theorem accepted_ofFields {fields : Fields} {members : Keyed (List Item)} {held : Keyed Form.Held}
    (known : Keyed.Matches AcceptedBy members held) {place : Form.Place} (clean : Form.itemComplaints fields held place = []) :
    (ofFields fields members).Accepted := by
  have sound := Form.soundItem_of_itemComplaints clean
  obtain ⟨sort, told, _⟩ := sort_yields sound
  unfold ofFields
  rw [told]
  cases sort with
  | idle => exact .leaf sound
  | data => exact .leaf sound
  | container =>
    refine .container sound ?_
    cases found : Keyed.find? members (.text "items") with
    | none => exact List.forall_mem_nil _
    | some items =>
      obtain ⟨check, among, accepted⟩ := known "items" items found
      obtain ⟨rest, _⟩ := List.append_eq_nil_iff.mp clean
      obtain ⟨_, inside⟩ := List.append_eq_nil_iff.mp rest
      rw [among] at inside
      exact accepted _ inside

mutual

theorem accepted_ofValue : (value : Value) → ∀ place, Form.checkItem value place = [] → (ofValue value).Accepted
  | .object fields => fun _ clean => accepted_ofFields (known_membersOf fields) clean
  | .scalar _ => fun _ clean => nomatch Form.expect_nil.mp clean
  | .list _ => fun _ clean => nomatch Form.expect_nil.mp clean
  | .handle _ => fun _ clean => nomatch Form.expect_nil.mp clean
termination_by structural value => value

theorem accepted_ofList : (items : List Value) → (∀ item ∈ items, ∃ place, Form.checkItem item place = []) →
    ∀ item ∈ ofList items, item.Accepted
  | [], _ => List.forall_mem_nil _
  | item :: items, clean =>
    have ⟨⟨place, first⟩, rest⟩ := List.forall_mem_cons.mp clean
    List.forall_mem_cons.mpr ⟨accepted_ofValue item place first, accepted_ofList items rest⟩
termination_by structural items => items

theorem known_membersOf : (fields : List (Scalar × Value)) →
    Keyed.Matches AcceptedBy (membersOf fields) (Form.heldBy fields)
  | [] => .nil
  | (_, .list items) :: fields =>
    .cons (fun _ clean => accepted_ofList items (Form.of_checkItems clean)) (known_membersOf fields)
  | (_, .object _) :: fields => .cons (fun _ _ => List.forall_mem_nil _) (known_membersOf fields)
  | (_, .scalar _) :: fields => .cons (fun _ _ => List.forall_mem_nil _) (known_membersOf fields)
  | (_, .handle _) :: fields => .cons (fun _ _ => List.forall_mem_nil _) (known_membersOf fields)
termination_by structural fields => fields

end

section Paths

variable {fields : Fields} (sound : Form.SoundItem fields)

include sound

theorem isMessage_nameOf : (nameOf fields).IsMessage := (sound.name.orElse sound.dataField).orElse .absent

/-- The path of an item below a text is a text. -/
theorem pathOf_yields (parent : String) : Yields (pathOf fields (.text parent)) fun path => ∃ name, path = .text name := by
  obtain ⟨sort, told, _⟩ := sort_yields sound
  obtain ⟨isLeftOut, answered⟩ : ∃ answer, leavesNameOut fields = .ok answer := by
    unfold leavesNameOut
    rw [told]
    dsimp only [bind, Except.bind]
    split <;> exact ⟨_, rfl⟩
  unfold pathOf
  simp only
  split
  · exact .ok ⟨parent, rfl⟩
  next named =>
    rw [answered]
    refine .ok ?_
    obtain ⟨name, shape⟩ := (isMessage_nameOf sound).text_of_truthy (by simpa using named)
    unfold joinPath
    split
    · exact ⟨parent, rfl⟩
    · split
      · exact ⟨_, rfl⟩
      · exact ⟨name, shape⟩

theorem addPath_yields (paths : Keyed Value) (parent : String) :
    Yields (addPath paths fields (.text parent)) fun _ => True := by
  unfold addPath
  simp only
  split
  next named =>
    obtain ⟨name, shape⟩ := (isMessage_nameOf sound).text_of_truthy named
    refine (pathOf_yields sound parent).bind fun path _ => ?_
    rw [shape]
    exact .ok trivial
  · exact .ok trivial

omit sound in
theorem addAllPaths_of_each {items : List Item}
    (each : ∀ item ∈ items, ∀ paths parent, Yields (addPaths paths (.text parent) item) fun _ => True)
    (paths : Keyed Value) (parent : String) : Yields (addAllPaths paths (.text parent) items) fun _ => True := by
  induction items generalizing paths with
  | nil => exact .ok trivial
  | cons item items ih =>
    obtain ⟨here, later⟩ := List.forall_mem_cons.mp each
    exact (here paths parent).bind fun more _ => ih later more

omit sound in
theorem addPaths_yields {item : Item} (accepted : item.Accepted) (paths : Keyed Value) (parent : String) :
    Yields (addPaths paths (.text parent) item) fun _ => True := by
  induction accepted generalizing paths parent with
  | leaf sound => exact addPath_yields sound paths parent
  | container sound _ ih =>
    refine (addPath_yields sound paths parent).bind fun more _ => ?_
    split
    · exact .ok trivial
    · refine (pathOf_yields sound parent).bind fun path text => ?_
      obtain ⟨name, rfl⟩ := text
      exact addAllPaths_of_each ih more name

end Paths

end Item

namespace Dependency

/-- Declarations that refer to fields by texts. -/
def Plain (declared : List Declared) : Prop :=
  ∀ entry ∈ declared, ∀ name ∈ entry.references, ∃ text, name = .text text

theorem forall_mem_amend {α : Type} {called : α → Name} {name : Name} {change : α → α} {new : α}
    {property : α → Prop} {items : List α} (all : ∀ item ∈ items, property item)
    (changed : ∀ item, property item → property (change item)) (fresh : property new) :
    ∀ item ∈ amend called name change new items, property item := by
  induction items with
  | nil => exact List.forall_mem_singleton.mpr fresh
  | cons item items ih =>
    obtain ⟨here, later⟩ := List.forall_mem_cons.mp all
    unfold amend
    split
    · exact List.forall_mem_cons.mpr ⟨changed item here, later⟩
    · exact List.forall_mem_cons.mpr ⟨here, ih later⟩

section Fields

variable {fields : Fields} (sound : Form.SoundItem fields) (paths : Keyed Value)

include sound

theorem nameOf?_yields : Yields (nameOf? fields) fun _ => True := by
  unfold nameOf?
  refine (Item.sort_yields sound).bind fun sort _ => ?_
  split
  · exact .ok trivial
  next kept =>
    have named : (Item.nameOf fields).truthy = true := by simp_all
    obtain ⟨name, shape⟩ := (Item.isMessage_nameOf sound).text_of_truthy named
    rw [shape]
    exact .ok trivial

theorem declarationOf_yields (name : Name) :
    Yields (declarationOf paths name fields) fun declared => ∀ name ∈ declared.references, ∃ text, name = .text text := by
  unfold declarationOf
  refine sound.rules.bind fun rules accepted => ?_
  refine (RuleNode.leavesOfAll_yields accepted).bind fun leaves _ => ?_
  refine (RuleNode.references_yields accepted true).bind fun references plain => .ok ?_
  refine List.forall_mem_append.mpr ⟨fun name member => ?_, plain⟩
  obtain ⟨slot, _, listed⟩ := List.mem_flatMap.mp member
  obtain ⟨text, _, rfl⟩ := List.mem_map.mp listed
  exact ⟨text, rfl⟩

theorem declareField_yields {declared : List Declared} (plain : Plain declared) :
    Yields (declareField paths declared fields) Plain := by
  unfold declareField
  refine (nameOf?_yields sound).bind fun name? _ => ?_
  cases name? with
  | none => exact .ok plain
  | some name =>
    refine (declarationOf_yields sound paths name).bind fun added texts => .ok ?_
    exact forall_mem_amend plain (fun _ before => List.forall_mem_append.mpr ⟨before, texts⟩) texts

end Fields

variable (paths : Keyed Value)

theorem declareAll_of_each {items : List Item}
    (each : ∀ item ∈ items, ∀ declared, Plain declared → Yields (declare paths declared item) Plain)
    {declared : List Declared} (plain : Plain declared) : Yields (declareAll paths declared items) Plain := by
  induction items generalizing declared with
  | nil => exact .ok plain
  | cons item items ih =>
    obtain ⟨here, later⟩ := List.forall_mem_cons.mp each
    exact (here declared plain).bind fun more plain => ih later plain

theorem declare_yields {item : Item} (accepted : item.Accepted) {declared : List Declared} (plain : Plain declared) :
    Yields (declare paths declared item) Plain := by
  induction accepted generalizing declared with
  | leaf sound => exact declareField_yields sound paths plain
  | container _ _ ih => exact declareAll_of_each paths (fun item member _ plain => ih item member plain) plain

theorem node_yields {declared : Declared} (plain : ∀ name ∈ declared.references, ∃ text, name = .text text) :
    Yields declared.node fun _ => True := by
  refine Yields.bind (Yields.mapM (q := fun _ => True) fun reference member => ?_) fun _ _ => .ok trivial
  obtain ⟨text, rfl⟩ := plain reference member
  exact .ok trivial

end Dependency

namespace Form

/-- What is known of the fields of a rule that scores a form as a whole. -/
structure SoundScoring (fields : Fields) : Prop where
  name : (Fields.get fields "name").IsMessage
  field : (Fields.get fields "fieldName").IsMessage
  categories : ∃ categories, (Fields.get fields "categoryMapping").orElse (.object []) = .object categories ∧
    ∀ category ∈ categories, ∃ text, category.2 = .text text

theorem soundScoring_of_complaints {place : Place} {value : Value} (clean : scoringComplaints place value = []) :
    ∃ fields, value = .object fields ∧ SoundScoring fields := by
  obtain ⟨fields, rfl, clean⟩ := of_inObject clean
  obtain ⟨clean, _⟩ := List.append_eq_nil_iff.mp clean
  obtain ⟨clean, _⟩ := List.append_eq_nil_iff.mp clean
  obtain ⟨clean, mapping⟩ := List.append_eq_nil_iff.mp clean
  obtain ⟨clean, _⟩ := List.append_eq_nil_iff.mp clean
  obtain ⟨clean, texts⟩ := List.append_eq_nil_iff.mp clean
  obtain ⟨clean, _⟩ := List.append_eq_nil_iff.mp clean
  obtain ⟨_, name⟩ := List.append_eq_nil_iff.mp clean
  have field := List.flatMap_eq_nil_iff.mp texts "fieldName" (by simp)
  have named (value : Value) (found : Keyed.find? fields (.text "categoryMapping") = some value) :
      ∃ categories, value = .object categories ∧ ∀ category ∈ categories, ∃ text, category.2 = .text text := by
    obtain ⟨categories, rfl, each⟩ := of_inObject (inField_nil.mp mapping value found)
    refine ⟨categories, rfl, fun category member => ?_⟩
    exact fits_text (expect_nil.mp (List.flatMap_eq_nil_iff.mp each category member))
  exact ⟨fields, rfl, isMessage_of_inField name, isMessage_of_inField field,
    Fields.get_orElse named ⟨[], rfl, List.forall_mem_nil _⟩⟩

/-- What is known of a form: its items are accepted, and the rules that score it are sound. -/
structure Sound (fields : Fields) (items rules : List Value) : Prop where
  listed : Pass.listIn fields "items" = .ok items
  accepted : ∀ item ∈ Item.ofList items, item.Accepted
  given : Pass.listIn fields "computedRules" = .ok rules
  scoring : ∀ rule ∈ rules, ∃ fields, rule = .object fields ∧ SoundScoring fields

theorem sound_of_complaints {form : Value} (clean : complaints form = []) :
    ∃ fields items rules, form = .object fields ∧ Sound fields items rules := by
  obtain ⟨fields, rfl, clean⟩ := of_inObject clean
  obtain ⟨clean, scoring⟩ := List.append_eq_nil_iff.mp clean
  obtain ⟨clean, _⟩ := List.append_eq_nil_iff.mp clean
  obtain ⟨_, inside⟩ := List.append_eq_nil_iff.mp clean
  obtain ⟨items, listed, all⟩ := listed_of_inField inside
  obtain ⟨rules, given, each⟩ := listed_of_inField scoring
  refine ⟨fields, items, rules, rfl, listed, Item.accepted_ofList items all, given, fun rule member => ?_⟩
  obtain ⟨_, clean⟩ := each rule member
  exact soundScoring_of_complaints clean

section Sound

variable {fields : Fields} {items rules : List Value} (sound : Sound fields items rules)

include sound

theorem Sound.itemsOf : Dependency.itemsOf (.object fields) = .ok (Item.ofList items) := by
  have listed := sound.listed
  unfold Pass.listIn at listed
  rw [Dependency.itemsOf_object, listed]
  rfl

/-- The graph of a form that is accepted can be extracted. -/
theorem Sound.graph : Yields (Dependency.Graph.ofForm (.object fields)) fun _ => True := by
  unfold Dependency.Graph.ofForm
  rw [sound.itemsOf]
  show Yields (Item.addAllPaths [] (.text "") (Item.ofList items) >>= _) _
  refine Yields.bind (p := fun _ => True) ?_ fun paths _ => ?_
  · exact Item.addAllPaths_of_each (fun item member => Item.addPaths_yields (sound.accepted item member)) [] ""
  refine (Dependency.declareAll_of_each paths
    (fun item member _ plain => Dependency.declare_yields paths (sound.accepted item member) plain)
    (List.forall_mem_nil _)).bind fun declared plain => ?_
  exact Yields.bind (Yields.mapM fun entry member => Dependency.node_yields (plain entry member)) fun _ _ => .ok trivial

end Sound

end Form

end FormRules

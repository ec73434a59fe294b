import FormRules.Proofs.CollectedRules
import FormRules.Proofs.RearrangedItems
import FormRules.Proofs.ShownGraphs

/-! What goes over from a document to whatever it holds goes over from a form to its fields, and from these to the
rules that they are checked by, at any depth of containers and groups. -/

namespace FormRules

/-- The rules that a group lists stand under its names. -/
theorem Group.exists_of_mem_rules {fields : Fields} {rule : Value} (listed : rule ∈ rules fields) :
    ∃ key value, Keyed.find? fields key = some value ∧ (rule = value ∨ rule ∈ partOf value) := by
  unfold rules at listed
  split at listed
  next given => exact ⟨_, _, Fields.find?_of_get given nofun, .inr listed⟩
  next given _ => exact ⟨_, _, Fields.find?_of_get given nofun, .inr listed⟩
  next given _ _ => exact ⟨_, _, Fields.find?_of_get given nofun, .inr listed⟩
  next =>
    simp only at listed
    split at listed
    next present =>
      obtain rfl := List.mem_singleton.mp listed
      refine ⟨_, _, Fields.find?_of_get rfl fun absent => ?_, .inl rfl⟩
      rw [absent] at present
      cases present
    next => cases listed

variable {property : Value → Prop}

section Parts

variable (inherited : Value.Inherited property)

include inherited

theorem Value.Inherited.find? {fields : Fields} (holds : property (.object fields)) {key : Scalar} {value : Value}
    (found : Keyed.find? fields key = some value) : property value := by
  obtain ⟨_, member, _⟩ := Keyed.exists_mem_of_find? found
  exact inherited.entry holds _ member

theorem Value.Inherited.partOf {value : Value} (holds : property value) : ∀ part ∈ Group.partOf value, property part := by
  cases value with
  | list items => exact inherited.item holds
  | scalar | object | handle => exact List.forall_mem_singleton.mpr holds

theorem Value.Inherited.listed {value : Value} (holds : property value) : ∀ item ∈ Item.listed value, property item := by
  cases value with
  | list items => exact inherited.item holds
  | scalar | object | handle => exact List.forall_mem_nil _

end Parts

namespace RuleNode

theorem forall_mem_ofList {good : RuleNode → Prop} {items : List Value} (each : ∀ item ∈ items, good (ofValue item)) :
    ∀ node ∈ ofList items, good node := by
  induction items with
  | nil => exact List.forall_mem_nil _
  | cons item items ih =>
    obtain ⟨here, later⟩ := List.forall_mem_cons.mp each
    exact List.forall_mem_cons.mpr ⟨here, ih later⟩

theorem consists_ofValue_of_each {fields : Fields} (holds : property (.object fields))
    (members : ∀ rule ∈ Group.rules fields, (ofValue rule).Consists fun rule => property (.object rule)) :
    (ofValue (.object fields)).Consists fun rule => property (.object rule) := by
  unfold Consists
  rw [ofValue, ofFields, childrenOf_heldBy]
  split
  · exact .ok (List.forall_mem_singleton.mpr holds)
  split
  · exact leavesOfAll_of_consists (forall_mem_ofList members)
  · exact .error _
  · exact .ok (List.forall_mem_nil _)
  · exact .error _

/-- The rules of what a group lists have the properties that go over to them. -/
theorem consists_ofValue (inherited : Value.Inherited property) (value : Value) :
    (property value → (ofValue value).Consists fun rule => property (.object rule)) ∧
      ∀ part ∈ Group.partOf value, property part → (ofValue part).Consists fun rule => property (.object rule) := by
  have idle : RuleNode.other.Consists fun rule => property (.object rule) := .ok (List.forall_mem_nil _)
  -- the members of a group can be two levels down, in a list, so of a list the same is said of its items
  induction value using Value.nested_induction with
  | scalar | handle => exact ⟨fun _ => idle, List.forall_mem_singleton.mpr fun _ => idle⟩
  | list items ih => exact ⟨fun _ => idle, fun item member => (ih item member).1⟩
  | object fields ih =>
    suffices consists : property (.object fields) → (ofValue (.object fields)).Consists fun rule => property (.object rule) from
      ⟨consists, List.forall_mem_singleton.mpr consists⟩
    intro holds
    refine consists_ofValue_of_each holds fun rule listed => ?_
    obtain ⟨key, value, found, here | part⟩ := Group.exists_of_mem_rules listed
    · obtain ⟨_, held, _⟩ := Keyed.exists_mem_of_find? found
      exact here ▸ (ih _ held).1 (inherited.find? holds found)
    · obtain ⟨_, held, _⟩ := Keyed.exists_mem_of_find? found
      exact (ih _ held).2 rule part (inherited.partOf (inherited.find? holds found) rule part)

theorem consists_ofList (inherited : Value.Inherited property) {items : List Value}
    (holds : ∀ item ∈ items, property item) : ∀ node ∈ ofList items, node.Consists fun rule => property (.object rule) :=
  forall_mem_ofList fun item member => (consists_ofValue inherited item).1 (holds item member)

end RuleNode

namespace Item

theorem forall_mem_ofList {good : Item → Prop} {items : List Value} (each : ∀ item ∈ items, good (ofValue item)) :
    ∀ item ∈ ofList items, good item := by
  induction items with
  | nil => exact List.forall_mem_nil _
  | cons item items ih =>
    obtain ⟨here, later⟩ := List.forall_mem_cons.mp each
    exact List.forall_mem_cons.mpr ⟨here, ih later⟩

/-- The fields that an item holds have the properties that go over to them. -/
theorem forall_mem_leaves_ofValue (inherited : Value.Inherited property) (value : Value) :
    (property value → ∀ fields ∈ (ofValue value).leaves, property (.object fields)) ∧
      ∀ item ∈ listed value, property item → ∀ fields ∈ (ofValue item).leaves, property (.object fields) := by
  induction value using Value.nested_induction with
  | scalar | handle => exact ⟨fun _ => List.forall_mem_nil _, nofun⟩
  | list items ih => exact ⟨fun _ => List.forall_mem_nil _, fun item member => (ih item member).1⟩
  | object fields ih =>
    refine ⟨fun holds => ?_, nofun⟩
    rw [ofValue_object]
    split
    · exact List.forall_mem_nil _
    · refine forall_mem_leavesOfAll.mpr (forall_mem_ofList fun item member => ?_)
      obtain ⟨value, found, among⟩ := exists_find?_of_listed member
      obtain ⟨_, held, _⟩ := Keyed.exists_mem_of_find? found
      exact (ih _ held).2 item among (inherited.listed (inherited.find? holds found) item among)
    · exact List.forall_mem_singleton.mpr holds

theorem forall_mem_leaves_ofList (inherited : Value.Inherited property) {items : List Value}
    (holds : ∀ item ∈ items, property item) :
    ∀ item ∈ ofList items, ∀ fields ∈ item.leaves, property (.object fields) :=
  forall_mem_ofList fun item member => (forall_mem_leaves_ofValue inherited item).1 (holds item member)

end Item

end FormRules

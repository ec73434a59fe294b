import FormRules.Proofs.ConditionReads
import FormRules.Proofs.KeyedJoins
import Mathlib.Data.Fintype.EquivFin
import Mathlib.Data.List.Forall2

/-! Equality of values. It goes over to third values. It can be read from either side where no object has a key twice,
for then the fields of one object that are found in another of the same size are all that this one has. A value is
equal to itself unless it is a NaN. -/

namespace FormRules

/-- If each key of one collection is the same as a key of another one of its size, no other keys are left over there:
keys that are not the same have different places. -/
theorem Keyed.Distinct.exists_same {α β : Type} {entries : Keyed α} {others : Keyed β} (distinct : entries.Distinct)
    (sizes : entries.length = others.length) (found : ∀ entry ∈ entries, ∃ other ∈ others, other.1.coincides entry.1 = true)
    {other : Scalar × β} (member : other ∈ others) : ∃ entry ∈ entries, other.1.coincides entry.1 = true := by
  have placed (i : Fin entries.length) : ∃ place : Fin others.length, (others.get place).1.coincides (entries.get i).1 = true := by
    obtain ⟨other, among, same⟩ := found _ (List.get_mem entries i)
    obtain ⟨place, rfl⟩ := List.get_of_mem among
    exact ⟨place, same⟩
  choose place same using placed
  have apart {i j : Fin entries.length} (less : i < j) : place i ≠ place j := by
    intro equal
    have alike := same i
    rw [equal, Scalar.coincides_comm] at alike
    have other := List.pairwise_iff_get.mp distinct i j less
    exact absurd (other.symm.trans (Scalar.coincides_trans alike (same j))) Bool.false_ne_true
  have injective : Function.Injective place := by
    intro i j equal
    obtain less | rfl | more := lt_trichotomy i j
    · exact absurd equal (apart less)
    · rfl
    · exact absurd equal.symm (apart more)
  obtain ⟨held, rfl⟩ := List.get_of_mem member
  have full : Function.Bijective place := by
    rw [Fintype.bijective_iff_injective_and_card, Fintype.card_fin, Fintype.card_fin]
    exact ⟨injective, sizes⟩
  obtain ⟨i, rfl⟩ := full.surjective held
  exact ⟨entries.get i, List.get_mem entries i, same i⟩

namespace Value

/-- Values of which no object, the value itself or one at some depth, has a key twice. -/
inductive HasDistinctKeys : Value → Prop
  | scalar (scalar : Scalar) : HasDistinctKeys (.scalar scalar)
  | list {items : List Value} : (∀ item ∈ items, HasDistinctKeys item) → HasDistinctKeys (.list items)
  | object {fields : Fields} : Keyed.Distinct fields → (∀ field ∈ fields, HasDistinctKeys field.2) →
      HasDistinctKeys (.object fields)
  | handle (name : String) : HasDistinctKeys (.handle name)

/-- Values in which nothing is a NaN, keys included. -/
inductive IsNaNFree : Value → Prop
  | scalar {scalar : Scalar} : scalar.isNaN = false → IsNaNFree (.scalar scalar)
  | list {items : List Value} : (∀ item ∈ items, IsNaNFree item) → IsNaNFree (.list items)
  | object {fields : Fields} : (∀ field ∈ fields, field.1.isNaN = false) → (∀ field ∈ fields, IsNaNFree field.2) →
      IsNaNFree (.object fields)
  | handle (name : String) : IsNaNFree (.handle name)

attribute [simp] HasDistinctKeys.scalar HasDistinctKeys.handle IsNaNFree.handle

@[simp] theorem hasDistinctKeys_list {items : List Value} :
    HasDistinctKeys (.list items) ↔ ∀ item ∈ items, HasDistinctKeys item :=
  ⟨fun | .list each => each, .list⟩

@[simp] theorem hasDistinctKeys_object {fields : Fields} :
    HasDistinctKeys (.object fields) ↔ Keyed.Distinct fields ∧ ∀ field ∈ fields, HasDistinctKeys field.2 :=
  ⟨fun | .object distinct each => ⟨distinct, each⟩, fun ⟨distinct, each⟩ => .object distinct each⟩

@[simp] theorem isNaNFree_scalar {scalar : Scalar} : IsNaNFree (.scalar scalar) ↔ scalar.isNaN = false :=
  ⟨fun | .scalar known => known, .scalar⟩

@[simp] theorem isNaNFree_list {items : List Value} : IsNaNFree (.list items) ↔ ∀ item ∈ items, IsNaNFree item :=
  ⟨fun | .list each => each, .list⟩

@[simp] theorem isNaNFree_object {fields : Fields} :
    IsNaNFree (.object fields) ↔ (∀ field ∈ fields, field.1.isNaN = false) ∧ ∀ field ∈ fields, IsNaNFree field.2 :=
  ⟨fun | .object keys each => ⟨keys, each⟩, fun ⟨keys, each⟩ => .object keys each⟩

/-! A NaN is one with another NaN only, so what equality of the parts has, being one has as well. -/

section Parts

variable {first second third : Value}

theorem coincides_iff :
    first.coincides second = true ↔ first.same second = true ∨ first.isNaN = true ∧ second.isNaN = true := by
  rw [coincides, Bool.or_eq_true, Bool.and_eq_true]

/-- A NaN is equal to nothing, and nothing to it. -/
theorem known_of_same (equal : first.same second = true) : first.isNaN = false ∧ second.isNaN = false := by
  cases first <;> cases second <;> first | exact ⟨rfl, rfl⟩ | skip
  case scalar.scalar a b =>
    have known {a b : Scalar} (equal : a.same b = true) : a.isNaN = false := by
      cases unknown : a.isNaN with
      | false => rfl
      | true => exact absurd ((Scalar.same_of_isNaN unknown b).symm.trans equal) Bool.false_ne_true
    exact ⟨known equal, known ((Scalar.same_comm b a).trans equal)⟩
  all_goals cases equal

theorem coincides_trans_of (trans : first.same second = true → second.same third = true → first.same third = true)
    (left : first.coincides second = true) (right : second.coincides third = true) : first.coincides third = true := by
  rw [coincides_iff] at left right ⊢
  obtain equal | ⟨unknown, middle⟩ := left
  · obtain equal' | ⟨middle, _⟩ := right
    · exact .inl (trans equal equal')
    · exact absurd ((known_of_same equal).2.symm.trans middle) Bool.false_ne_true
  · obtain equal' | ⟨_, unknown'⟩ := right
    · exact absurd ((known_of_same equal').1.symm.trans middle) Bool.false_ne_true
    · exact .inr ⟨unknown, unknown'⟩

theorem coincides_swapped_of (swap : first.same second = true → second.same first = true)
    (one : first.coincides second = true) : second.coincides first = true := by
  rw [coincides_iff] at one ⊢
  exact one.imp swap And.symm

end Parts

/-! Lists are equal item by item; an object is equal to one of its size in which all its fields are found. -/

theorem sameItems_iff {items others : List Value} :
    sameItems items others = true ↔ List.Forall₂ (fun item other => item.coincides other = true) items others := by
  induction items generalizing others with
  | nil => cases others <;> simp [sameItems]
  | cons item items ih => cases others <;> simp [sameItems, coincides, ih]

/-- Whether a field is found in an object. -/
def IsFound (others : Fields) (field : Scalar × Value) : Prop :=
  ∃ other, Keyed.find? others field.1 = some other ∧ field.2.coincides other = true

theorem sameFields_iff {fields others : Fields} :
    sameFields fields others = true ↔ ∀ field ∈ fields, IsFound others field := by
  induction fields with
  | nil => simp [sameFields]
  | cons field fields ih =>
    rw [sameFields, Bool.and_eq_true, ih, List.forall_mem_cons]
    refine and_congr_left' ?_
    unfold IsFound
    cases Keyed.find? others field.1 <;> simp [coincides]

/-- How two values come to be equal, whatever their parts are. -/
inductive Matched : Value → Value → Prop
  | scalar {first second : Scalar} : first.same second = true → Matched (.scalar first) (.scalar second)
  | list {items others : List Value} : List.Forall₂ (fun item other => item.coincides other = true) items others →
      Matched (.list items) (.list others)
  | object {fields others : Fields} : fields.length = others.length → (∀ field ∈ fields, IsFound others field) →
      Matched (.object fields) (.object others)
  | handle (name : String) : Matched (.handle name) (.handle name)

theorem same_iff {first second : Value} : first.same second = true ↔ Matched first second := by
  constructor
  · intro equal
    cases first <;> cases second <;> simp only [same, Bool.false_eq_true] at equal
    case scalar.scalar => exact .scalar equal
    case list.list => exact .list (sameItems_iff.mp equal)
    case object.object =>
      rw [Bool.and_eq_true, beq_iff_eq, sameFields_iff] at equal
      exact .object equal.1 equal.2
    case handle.handle name other => exact beq_iff_eq.mp equal ▸ .handle name
  · intro matched
    cases matched with
    | scalar equal => rwa [same]
    | list equal => rw [same, sameItems_iff.mpr equal]
    | object sizes found => rw [same, sizes, sameFields_iff.mpr found, beq_self_eq_true, Bool.and_self]
    | handle name => rw [same, beq_self_eq_true]

/-- Equality goes over to third values. -/
theorem same_trans {first second third : Value} (left : first.same second = true) (right : second.same third = true) :
    first.same third = true := by
  induction first using Value.nested_induction generalizing second third with
  | scalar a =>
    cases same_iff.mp left with
    | scalar here =>
      cases same_iff.mp right with
      | scalar there => exact same_iff.mpr (.scalar (Scalar.same_trans here there))
  | handle name =>
    cases same_iff.mp left with
    | handle _ => exact right
  | list items ih =>
    cases same_iff.mp left with
    | list here =>
      cases same_iff.mp right with
      | list there =>
        rw [List.forall₂_iff_get] at here there
        refine same_iff.mpr (.list (List.forall₂_iff_get.mpr ⟨here.1.trans there.1, fun i start stop => ?_⟩))
        have middle := here.1 ▸ start
        exact coincides_trans_of (ih _ (List.get_mem ..)) (here.2 i start middle) (there.2 i middle stop)
  | object fields ih =>
    cases same_iff.mp left with
    | object sizes here =>
      cases same_iff.mp right with
      | object sizes' there =>
        refine same_iff.mpr (.object (sizes.trans sizes') fun field member => ?_)
        obtain ⟨middle, found, equal⟩ := here field member
        obtain ⟨key, held, alike⟩ := Keyed.exists_mem_of_find? found
        obtain ⟨last, found', equal'⟩ := there _ held
        refine ⟨last, (Keyed.find?_congr _ alike).symm.trans found', ?_⟩
        exact coincides_trans_of (ih field member) equal equal'

/-- In an object of the same size without a key twice, only what is found in it is there. -/
theorem isFound_swapped {fields others : Fields} (distinct : Keyed.Distinct fields) (distinct' : Keyed.Distinct others)
    (sizes : fields.length = others.length) (found : ∀ field ∈ fields, IsFound others field)
    (swap : ∀ field ∈ fields, ∀ other ∈ others, field.2.coincides other.2 = true → other.2.coincides field.2 = true) :
    ∀ other ∈ others, IsFound fields other := by
  intro other member
  have held (field : Scalar × Value) (inside : field ∈ fields) : ∃ other ∈ others, other.1.coincides field.1 = true := by
    obtain ⟨_, value, _⟩ := found field inside
    obtain ⟨key, among, same⟩ := Keyed.exists_mem_of_find? value
    exact ⟨_, among, same⟩
  obtain ⟨field, inside, same⟩ := distinct.exists_same sizes held member
  obtain ⟨value, here, equal⟩ := found field inside
  rw [distinct'.find?_of_mem member same, Option.some.injEq] at here
  subst here
  exact ⟨field.2, distinct.find?_of_mem inside (by rwa [Scalar.coincides_comm]), swap field inside other member equal⟩

/-- Equality can be read from either side. -/
theorem same_swapped {first second : Value} (left : first.HasDistinctKeys) (right : second.HasDistinctKeys)
    (equal : first.same second = true) : second.same first = true := by
  induction first using Value.nested_induction generalizing second with
  | scalar a =>
    cases same_iff.mp equal with
    | scalar same => exact same_iff.mpr (.scalar (by rwa [Scalar.same_comm]))
  | handle name =>
    cases same_iff.mp equal with
    | handle _ => exact equal
  | list items ih =>
    cases same_iff.mp equal with
    | list each =>
      rw [hasDistinctKeys_list] at left right
      rw [List.forall₂_iff_get] at each
      refine same_iff.mpr (.list (List.forall₂_iff_get.mpr ⟨each.1.symm, fun i there here => ?_⟩))
      refine coincides_swapped_of (ih _ (List.get_mem ..) (left _ (List.get_mem ..)) ?_) (each.2 i here there)
      exact right _ (List.get_mem ..)
  | object fields ih =>
    cases same_iff.mp equal with
    | object sizes found =>
      obtain ⟨distinct, left⟩ := hasDistinctKeys_object.mp left
      obtain ⟨distinct', right⟩ := hasDistinctKeys_object.mp right
      refine same_iff.mpr (.object sizes.symm (isFound_swapped distinct distinct' sizes found ?_))
      intro field inside other member
      exact coincides_swapped_of (ih field inside (left field inside) (right other member))

theorem same_comm {first second : Value} (left : first.HasDistinctKeys) (right : second.HasDistinctKeys) :
    first.same second = second.same first :=
  Bool.eq_iff_iff.mpr ⟨same_swapped left right, same_swapped right left⟩

theorem coincides_comm {first second : Value} (left : first.HasDistinctKeys) (right : second.HasDistinctKeys) :
    first.coincides second = second.coincides first := by
  rw [coincides, coincides, same_comm left right, Bool.and_comm]

/-- A value that is not a NaN is equal to itself, whatever stands in it. -/
theorem same_self {value : Value} (distinct : value.HasDistinctKeys) (known : value.isNaN = false) :
    value.same value = true := by
  have one {part : Value} (equal : part.isNaN = false → part.same part = true) : part.coincides part = true := by
    cases unknown : part.isNaN with
    | false => exact coincides_iff.mpr (.inl (equal unknown))
    | true => exact coincides_iff.mpr (.inr ⟨unknown, unknown⟩)
  induction value using Value.nested_induction with
  | scalar a => exact same_iff.mpr (.scalar (Scalar.same_self known))
  | handle name => exact same_iff.mpr (.handle name)
  | list items ih =>
    rw [hasDistinctKeys_list] at distinct
    refine same_iff.mpr (.list (List.forall₂_same.mpr fun item member => ?_))
    exact one (ih item member (distinct item member))
  | object fields ih =>
    obtain ⟨distinct, inner⟩ := hasDistinctKeys_object.mp distinct
    refine same_iff.mpr (.object rfl fun field member => ⟨field.2, ?_, ?_⟩)
    · exact distinct.find?_of_mem member (Scalar.coincides_self _)
    · exact one (ih field member (inner field member))

theorem IsNaNFree.known {value : Value} (known : value.IsNaNFree) : value.isNaN = false := by
  cases known with
  | scalar known => exact known
  | list | object | handle => rfl

end Value

end FormRules

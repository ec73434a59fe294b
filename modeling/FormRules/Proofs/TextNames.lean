import FormRules.Json.Writer
import FormRules.Proofs.Agreement
import FormRules.Proofs.KeyedEntries
import FormRules.Proofs.PathLookup

/-! Documents in which every name is a text, as it is in JSON. Each of them has a canonical text, and so has
whatever a path leads to in it. -/

namespace FormRules

namespace Value

mutual

/-- Whether all names in a value are texts. -/
def isTextNamed : Value → Bool
  | .list items => areTextNamed items
  | .object fields => haveTextNames fields
  | _ => true

def areTextNamed : List Value → Bool
  | [] => true
  | item :: items => item.isTextNamed && areTextNamed items

def haveTextNames : List (Scalar × Value) → Bool
  | [] => true
  | (key, value) :: fields => (Value.scalar key).isText && value.isTextNamed && haveTextNames fields

end

theorem areTextNamed_iff {items : List Value} : areTextNamed items = true ↔ ∀ item ∈ items, item.isTextNamed = true := by
  induction items with
  | nil => simp [areTextNamed]
  | cons item items ih => rw [areTextNamed, Bool.and_eq_true, ih, List.forall_mem_cons]

theorem haveTextNames_iff {fields : Fields} : haveTextNames fields = true ↔
    ∀ entry ∈ fields, (Value.scalar entry.1).isText = true ∧ entry.2.isTextNamed = true := by
  induction fields with
  | nil => simp [haveTextNames]
  | cons entry fields ih => rw [haveTextNames, Bool.and_eq_true, Bool.and_eq_true, ih, List.forall_mem_cons]

end Value

namespace Json

section Sorting

variable {α : Type} {p : Scalar × α → Prop}

theorem insertByKey_yields (named : ∀ entry, p entry → ∃ name, entry.1 = .text name) {key : Scalar} {value : α}
    (holds : p (key, value)) {sorted : List (Scalar × α)} (before : ∀ entry ∈ sorted, p entry) :
    Yields (insertByKey key value sorted) fun later => ∀ entry ∈ later, p entry := by
  induction sorted with
  | nil => exact .ok (List.forall_mem_singleton.mpr holds)
  | cons first rest ih =>
    obtain ⟨other, old⟩ := first
    obtain ⟨here, later⟩ := List.forall_mem_cons.mp before
    obtain ⟨name, rfl⟩ : ∃ name, key = .text name := named _ holds
    obtain ⟨known, rfl⟩ : ∃ name, other = .text name := named _ here
    unfold insertByKey
    refine Yields.bind (p := fun _ => True) (.ok trivial) fun less _ => ?_
    cases less with
    | true => exact .ok (List.forall_mem_cons.mpr ⟨holds, before⟩)
    | false => exact (ih later).bind fun _ kept => .ok (List.forall_mem_cons.mpr ⟨here, kept⟩)

theorem sortByKey_yields (named : ∀ entry, p entry → ∃ name, entry.1 = .text name)
    {entries : List (Scalar × α)} (all : ∀ entry ∈ entries, p entry) :
    Yields (sortByKey entries) fun sorted => ∀ entry ∈ sorted, p entry := by
  have step {sorted : List (Scalar × α)} (before : ∀ entry ∈ sorted, p entry) :
      Yields (entries.foldlM (fun sorted entry => insertByKey entry.1 entry.2 sorted) sorted)
        fun sorted => ∀ entry ∈ sorted, p entry := by
    induction entries generalizing sorted with
    | nil => exact .ok before
    | cons entry entries ih =>
      obtain ⟨here, later⟩ := List.forall_mem_cons.mp all
      exact (insertByKey_yields named here before).bind fun _ kept => ih later kept
  exact step (List.forall_mem_nil _)

end Sorting

/-- A field of which both the name and the value can be written. -/
def Written (field : Scalar × Except Fault String) : Prop :=
  (∃ name, field.1 = .text name) ∧ Yields field.2 fun _ => True

theorem writeScalar_yields (charset : Charset) (scalar : Scalar) : Yields (writeScalar charset true scalar) fun _ => True := by
  unfold writeScalar nameOf
  cases scalar <;> exact ⟨_, rfl, trivial⟩

mutual

theorem canonical_yields : (value : Value) → value.isTextNamed = true → Yields (canonical true value) fun _ => True
  | .scalar scalar, _ => writeScalar_yields .ascii scalar
  | .list items, named => (canonicalItems_yields items named).bind fun _ _ => .ok trivial
  | .object fields, named => by
    refine (sortByKey_yields (p := Written) (fun _ written => written.1) (canonicalFields_written fields named)).bind ?_
    intro sorted written
    refine Yields.bind (Yields.mapM (q := fun _ => True) fun entry member => ?_) fun _ _ => .ok trivial
    obtain ⟨⟨name, named⟩, text⟩ := written entry member
    simp only [named]
    exact text.bind fun _ _ => .ok trivial
  | .handle _, _ => .ok trivial
termination_by structural value => value

theorem canonicalItems_yields : (items : List Value) → Value.areTextNamed items = true →
    Yields (canonicalItems true items) fun _ => True
  | [], _ => .ok trivial
  | item :: items, named => by
    rw [Value.areTextNamed, Bool.and_eq_true] at named
    obtain ⟨first, rest⟩ := named
    exact (canonical_yields item first).bind fun _ _ => (canonicalItems_yields items rest).bind fun _ _ => .ok trivial
termination_by structural items => items

theorem canonicalFields_written : (fields : List (Scalar × Value)) → Value.haveTextNames fields = true →
    ∀ field ∈ canonicalFields true fields, Written field
  | [], _ => by simp [canonicalFields]
  | (key, value) :: fields, named => by
    rw [Value.haveTextNames, Bool.and_eq_true, Bool.and_eq_true] at named
    obtain ⟨⟨text, plain⟩, rest⟩ := named
    obtain ⟨name, shape⟩ := Value.isText_iff.mp text
    cases shape
    exact List.forall_mem_cons.mpr ⟨⟨⟨name, rfl⟩, canonical_yields value plain⟩, canonicalFields_written fields rest⟩
termination_by structural fields => fields

end

end Json

/-- A property of values that goes over to whatever they hold. -/
structure Value.Inherited (property : Value → Prop) : Prop where
  item : ∀ {items : List Value}, property (.list items) → ∀ item ∈ items, property item
  entry : ∀ {fields : Fields}, property (.object fields) → ∀ entry ∈ fields, property entry.2

theorem Value.inherited_isTextNamed : Inherited (·.isTextNamed = true) where
  item := areTextNamed_iff.mp
  entry named entry member := (haveTextNames_iff.mp named entry member).2

namespace Path

variable {property : Value → Prop} (inherited : Value.Inherited property)

include inherited

theorem step?_ensures {container : Value} (holds : property container) (segment : String) :
    Ensures (step? container segment) fun value? => ∀ value ∈ value?, property value := by
  unfold step?
  split
  next fields =>
    refine .ok fun value found => ?_
    obtain ⟨key, member, _⟩ := Keyed.exists_mem_of_find? found
    exact inherited.entry holds _ member
  next items =>
    refine Ensures.any.map fun position? _ value found => ?_
    obtain ⟨position, _, here⟩ := Option.bind_eq_some_iff.mp found
    exact inherited.item holds value (List.mem_of_getElem? here)
  next => exact .ok nofun

/-- What a path leads to has the properties that go over to it. -/
theorem walk?_ensures {root : Value} (holds : property root) (steps : List String) :
    Ensures (walk? root steps) fun value? => ∀ value ∈ value?, property value := by
  induction steps generalizing root with
  | nil => exact .ok fun value same => Option.some.inj same ▸ holds
  | cons step steps ih =>
    refine (step?_ensures inherited holds step).bind fun inner? inside => ?_
    cases inner? with
    | none => exact .ok nofun
    | some inner => exact ih (inside inner rfl)

end Path

end FormRules

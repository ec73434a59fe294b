import FormRules.Json.Reader
import FormRules.Json.Writer
import FormRules.Proofs.CanonicalText
import FormRules.Proofs.KeyedJoins
import FormRules.Proofs.Messages
import FormRules.Proofs.TextNames
import FormRules.Value.Arithmetic

/-! Values that can be written over several lines. A day or a moment can be written as a text, but it cannot be
the name of a field; every other name can. What is taken from values that can be written, looked up in them by a path
or computed from them, can be written. -/

namespace FormRules

namespace Value

mutual

/-- Whether no name in a value is a day or a moment. -/
def isWritable : Value → Bool
  | .list items => areWritable items
  | .object fields => haveWritable fields
  | _ => true

def areWritable : List Value → Bool
  | [] => true
  | item :: items => item.isWritable && areWritable items

def haveWritable : List (Scalar × Value) → Bool
  | [] => true
  | (key, value) :: fields => Json.isPlainScalar key && value.isWritable && haveWritable fields

end

theorem areWritable_iff {items : List Value} : areWritable items = true ↔ ∀ item ∈ items, item.isWritable = true := by
  induction items with
  | nil => simp [areWritable]
  | cons item items ih => rw [areWritable, Bool.and_eq_true, ih, List.forall_mem_cons]

theorem haveWritable_iff {fields : Fields} : haveWritable fields = true ↔
    ∀ entry ∈ fields, Json.isPlainScalar entry.1 = true ∧ entry.2.isWritable = true := by
  induction fields with
  | nil => simp [haveWritable]
  | cons entry fields ih => rw [haveWritable, Bool.and_eq_true, Bool.and_eq_true, ih, List.forall_mem_cons]

theorem inherited_isWritable : Inherited (·.isWritable = true) where
  item := areWritable_iff.mp
  entry writable entry member := (haveWritable_iff.mp writable entry member).2

theorem isWritable_list_map {α : Type} {shown : α → Value} {items : List α} :
    (Value.list (items.map shown)).isWritable = true ↔ ∀ item ∈ items, (shown item).isWritable = true := by
  rw [isWritable, areWritable_iff, List.forall_mem_map]

theorem isWritable_ofFields (fields : List (String × Value)) :
    (Value.ofFields fields).isWritable = fields.all (·.2.isWritable) := by
  induction fields with
  | nil => rfl
  | cons field fields ih =>
    rw [List.all_cons, ← ih]
    rfl

theorem IsMessage.isWritable {value : Value} (message : value.IsMessage) : value.isWritable = true := by
  cases message <;> rfl

theorem IsMessage.asKey_plain {value : Value} (message : value.IsMessage) :
    Ensures value.asKey (Json.isPlainScalar · = true) := by
  cases message <;> exact .ok rfl

section Parts

variable {value other : Value}

theorem isWritable_orElse (writable : value.isWritable = true) (absent : other.isWritable = true) :
    (value.orElse other).isWritable = true := by
  unfold orElse
  split
  · exact writable
  · exact absent

/-- What a value holds, one after the other, can be written. -/
theorem items_isWritable (writable : value.isWritable = true) :
    Ensures value.items fun items => ∀ item ∈ items, item.isWritable = true := by
  unfold items
  split
  · exact .ok (areWritable_iff.mp writable)
  · exact .ok (List.forall_mem_map.mpr fun _ _ => rfl)
  · exact .ok (List.forall_mem_map.mpr fun _ _ => rfl)
  · exact .error _

theorem onNumbers_isWritable (sign : String) (operation : Number → Number → Except Fault Number) (first second : Value) :
    Ensures (onNumbers sign operation first second) (·.isWritable = true) := by
  unfold onNumbers
  split
  · exact Ensures.any.map fun _ _ => rfl
  · exact .error _

theorem add_isWritable {first second : Value} (left : first.isWritable = true) (right : second.isWritable = true)
    (sign : String) : Ensures (first.add second sign) (·.isWritable = true) := by
  unfold add
  split
  · exact .ok rfl
  · exact .ok (areWritable_iff.mpr (List.forall_mem_append.mpr ⟨areWritable_iff.mp left, areWritable_iff.mp right⟩))
  · exact .error _
  · exact .error _
  · exact onNumbers_isWritable _ _ _ _

theorem mul_isWritable {first : Value} (writable : first.isWritable = true) (second : Value) :
    Ensures (first.mul second) (·.isWritable = true) := by
  unfold mul
  split
  · split
    · exact .ok rfl
    · exact .error _
  · split
    next items _ count _ =>
      refine .ok (areWritable_iff.mpr fun item member => ?_)
      obtain ⟨copy, among, listed⟩ := List.mem_flatten.mp member
      obtain rfl := List.eq_of_mem_replicate among
      exact areWritable_iff.mp writable item listed
    · exact .error _
  · exact onNumbers_isWritable _ _ _ _

theorem neg_isWritable (value : Value) : Ensures value.neg (·.isWritable = true) := by
  unfold neg
  split
  · exact .ok rfl
  · exact .error _

end Parts

end Value

namespace Keyed

variable {α β : Type} {good : α → Prop} {better : β → Prop} {entries more : Keyed α}

/-- Entries that are good, under names that can be written. -/
def Writable (good : α → Prop) (entries : Keyed α) : Prop :=
  ∀ entry ∈ entries, Json.isPlainScalar entry.1 = true ∧ good entry.2

namespace Writable

theorem nil : Writable good [] := List.forall_mem_nil _

theorem of_find? (writable : entries.Writable good) {key : Scalar} {entry : α} (found : find? entries key = some entry) :
    good entry := by
  obtain ⟨_, member, _⟩ := exists_mem_of_find? found
  exact (writable _ member).2

theorem insert (writable : entries.Writable good) {key : Scalar} (plain : Json.isPlainScalar key = true) {entry : α}
    (holds : good entry) : (Keyed.insert entries key entry).Writable good := by
  intro member inside
  constructor
  · obtain ⟨held, among, same⟩ | same := key_of_mem_insert inside
    · exact same ▸ (writable held among).1
    · exact same ▸ plain
  · obtain among | same := mem_insert inside
    · exact (writable member among).2
    · exact same ▸ holds

theorem joinAll {join : α → α → α} (closed : ∀ entry later, good entry → good later → good (join entry later))
    (first : entries.Writable good) (second : more.Writable good) : (Keyed.joinAll join entries more).Writable good := by
  induction more generalizing entries with
  | nil => exact first
  | cons next rest ih =>
    obtain ⟨⟨plain, here⟩, later⟩ := List.forall_mem_cons.mp second
    refine ih (first.insert plain ?_) later
    cases found : find? entries next.1 with
    | none => exact here
    | some held => exact closed _ _ (first.of_find? found) here

theorem merge (first : entries.Writable good) (second : more.Writable good) : (Keyed.merge entries more).Writable good := by
  rw [merge_eq_joinAll]
  exact joinAll (fun _ _ _ later => later) first second

theorem weaken {better : α → Prop} (writable : entries.Writable good) (implies : ∀ entry, good entry → better entry) :
    entries.Writable better :=
  fun entry member => ⟨(writable entry member).1, implies entry.2 (writable entry member).2⟩

theorem map {f : α → β} (writable : entries.Writable fun entry => better (f entry)) :
    Writable better (entries.map fun (key, entry) => (key, f entry)) :=
  List.forall_mem_map.mpr writable

end Writable

end Keyed

theorem Fields.get_isWritable {fields : Fields} (writable : fields.Writable (·.isWritable = true)) (name : String) :
    (Fields.get fields name).isWritable = true := by
  unfold Fields.get
  cases found : Keyed.find? fields (.text name) with
  | none => rfl
  | some value => exact writable.of_find? found

theorem Value.isWritable_object_map {α : Type} {shown : α → Value} {entries : Keyed α}
    (writable : entries.Writable fun entry => (shown entry).isWritable = true) :
    (Value.object (entries.map fun (key, entry) => (key, shown entry))).isWritable = true :=
  haveWritable_iff.mpr (List.forall_mem_map.mpr writable)

theorem Value.asObject_writable {value : Value} (writable : value.isWritable = true) :
    Ensures value.asObject (·.Writable (·.isWritable = true)) := by
  unfold asObject
  split
  · exact .ok (haveWritable_iff.mp writable)
  · exact .error _

namespace Json

theorem nameOf_yields {key : Scalar} (plain : isPlainScalar key = true) : Yields (nameOf key) fun _ => True := by
  cases key with
  | date day | moment moment => cases plain
  | null | bool | number | text => exact .ok trivial

mutual

/-- What can be written can be written at every depth. -/
theorem indented_yields : (value : Value) → value.isWritable = true → ∀ depth,
    Yields (indented depth value) fun _ => True
  | .scalar scalar, _, _ => writeScalar_yields .full scalar
  | .list items, writable, depth =>
    (indentedItems_yields items writable (depth + 1)).bind fun _ _ => .ok trivial
  | .object fields, writable, depth =>
    (indentedFields_yields fields writable (depth + 1)).bind fun _ _ => .ok trivial
  | .handle _, _, _ => .ok trivial
termination_by structural value => value

theorem indentedItems_yields : (items : List Value) → Value.areWritable items = true → ∀ depth,
    Yields (indentedItems depth items) fun _ => True
  | [], _, _ => .ok trivial
  | item :: items, writable, depth => by
    obtain ⟨first, rest⟩ := Bool.and_eq_true_iff.mp writable
    refine (indented_yields item first depth).bind fun _ _ => ?_
    exact (indentedItems_yields items rest depth).bind fun _ _ => .ok trivial
termination_by structural items => items

theorem indentedFields_yields : (fields : List (Scalar × Value)) → Value.haveWritable fields = true → ∀ depth,
    Yields (indentedFields depth fields) fun _ => True
  | [], _, _ => .ok trivial
  | (key, value) :: fields, writable, depth => by
    obtain ⟨first, rest⟩ := Bool.and_eq_true_iff.mp writable
    obtain ⟨plain, inside⟩ := Bool.and_eq_true_iff.mp first
    refine (nameOf_yields plain).bind fun _ _ => (indented_yields value inside depth).bind fun _ _ => ?_
    exact (indentedFields_yields fields rest depth).bind fun _ _ => .ok trivial
termination_by structural fields => fields

end

/-! Documents in JSON name fields by texts only. -/

theorem readWord?_isWritable {chars : List Char} {found : Value × List Char} (read : readWord? chars = some found) :
    found.1.isWritable = true := by
  have plain : ∀ word ∈ words, word.2.isWritable = true := by simp [words, Value.isWritable]
  obtain ⟨word, listed, taken⟩ := List.exists_of_findSome?_eq_some read
  simp only at taken
  split at taken
  · cases taken
    exact plain word listed
  · cases taken

mutual

theorem readValue_isWritable : (fuel : Nat) → ∀ chars, Ensures (readValue fuel chars) (·.1.isWritable = true)
  | 0, _ => .error _
  | fuel + 1, chars => by
    unfold readValue
    split
    · exact .error _
    split
    · exact Ensures.any.bind fun _ _ => .ok rfl
    split
    · split
      · exact .ok rfl
      · exact (readItems_areWritable fuel _).bind fun _ all => .ok all
    split
    · split
      · exact .ok rfl
      · exact (readFields_writable fuel _ .nil).bind fun _ all => .ok (Value.haveWritable_iff.mpr all)
    · split
      next found word =>
        exact .ok (readWord?_isWritable word)
      · exact Ensures.any.bind fun _ _ => .ok rfl
termination_by structural fuel => fuel

theorem readItems_areWritable : (fuel : Nat) → ∀ chars, Ensures (readItems fuel chars) (Value.areWritable ·.1 = true)
  | 0, _ => .error _
  | fuel + 1, chars => by
    unfold readItems
    refine (readValue_isWritable fuel chars).bind fun (item, left) here => ?_
    simp only
    split
    · exact .ok (Bool.and_eq_true_iff.mpr ⟨here, rfl⟩)
    · exact (readItems_areWritable fuel _).bind fun _ all => .ok (Bool.and_eq_true_iff.mpr ⟨here, all⟩)
    · exact .error _
termination_by structural fuel => fuel

theorem readFields_writable : (fuel : Nat) → ∀ {fields : Fields} chars, fields.Writable (·.isWritable = true) →
    Ensures (readFields fuel fields chars) (·.1.Writable (·.isWritable = true))
  | 0, _, _, _ => .error _
  | fuel + 1, fields, chars, before => by
    unfold readFields
    split
    · exact .error _
    split
    · exact .error _
    refine Ensures.any.bind fun (name, left) _ => ?_
    simp only
    split
    · refine (readValue_isWritable fuel _).bind fun (value, left) here => ?_
      have later : (Keyed.insert fields (.text name) value).Writable (·.isWritable = true) := before.insert rfl here
      simp only
      split
      · exact .ok later
      · exact readFields_writable fuel _ later
      · exact .error _
    · exact .error _
termination_by structural fuel => fuel

end

theorem readDocument_isWritable (chars : List Char) : Ensures (readDocument chars) (·.isWritable = true) := by
  unfold readDocument
  simp only
  split
  · exact .error _
  refine (readValue_isWritable _ _).bind fun (value, left) writable => ?_
  simp only
  split
  · exact .ok writable
  · exact .error _

/-- Every document in JSON can be written. -/
theorem ofText_isWritable (text : String) : Ensures (ofText text) (·.isWritable = true) := by
  unfold ofText
  simp only
  split
  next value read => exact .ok (readDocument_isWritable _ value read)
  · exact .error _
  · exact .error _

end Json

end FormRules

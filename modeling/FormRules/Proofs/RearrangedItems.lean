import FormRules.Dependency.Extract
import FormRules.Proofs.Agreement
import FormRules.Proofs.ConditionReads
import FormRules.Proofs.KeyedEntries
import Mathlib.Data.List.Forall2
import Mathlib.Data.List.Perm.Basic

/-! Forms that differ in the order of their items, at any depth. They hold the same fields below the same paths, in
another order. -/

namespace FormRules

/-- An item or a form, with the items inside it in another order, and so on inside of these. -/
inductive Value.Rearranged : Value → Value → Prop
  | same (value : Value) : Rearranged value value
  | inside {fields : Fields} {items arranged others : List Value} (held : Fields.get fields "items" = .list items)
      (each : List.Forall₂ Rearranged items arranged) (moved : arranged.Perm others) :
      Rearranged (.object fields) (.object (Keyed.insert fields (.text "items") (.list others)))

/-- What holds of equal values, and passes from items to what holds them in another order, holds of all values that
are rearranged. -/
@[elab_as_elim]
theorem Value.Rearranged.nested_induction {property : Value → Value → Prop} (same : ∀ value, property value value)
    (inside : ∀ fields items arranged others, Fields.get fields "items" = .list items →
      List.Forall₂ property items arranged → arranged.Perm others →
      property (.object fields) (.object (Keyed.insert fields (.text "items") (.list others))))
    {value other : Value} (rearranged : value.Rearranged other) : property value other :=
  @Value.Rearranged.rec (fun value other _ => property value other)
    (fun items arranged _ => List.Forall₂ property items arranged) same
    (fun held _ moved each => inside _ _ _ _ held each moved) .nil (fun _ _ first rest => .cons first rest) _ _ rearranged

namespace Item

/-- The parts of a form that are checked one by one: items that hold no others, without what is inside of them, each
with the path of what it is in, and what cannot be checked at all. -/
inductive Piece where
  | field (fields : Fields) (parent : Value)
  | broken (fault : Fault)

mutual

def pieces (parent : Value) : Item → List Piece
  | .stray kind => [.broken (.attribute kind "get")]
  | .untyped _ fault => [.broken fault]
  | .leaf fields => [.field (Keyed.erase fields (.text "items")) parent]
  | .container fields children =>
    match pathOf fields parent with
    | .error fault => [.broken fault]
    | .ok path => piecesOf path children

def piecesOf (parent : Value) : List Item → List Piece
  | [] => []
  | item :: items => pieces parent item ++ piecesOf parent items

end

/-- The path of a part that holds data. -/
def Piece.path? : Piece → Option Value
  | .broken _ => none
  | .field fields parent =>
    match ItemSort.ofFields fields, pathOf fields parent with
    | .ok .data, .ok path => if (nameOf fields).truthy then some path else none
    | _, _ => none

theorem Piece.path?_eq_some {fields : Fields} {parent path : Value} : (Piece.field fields parent).path? = some path ↔
    ItemSort.ofFields fields = .ok .data ∧ (nameOf fields).truthy = true ∧ pathOf fields parent = .ok path := by
  simp only [Piece.path?]
  constructor
  · intro found
    split at found
    next told place =>
      split at found
      next named =>
        cases found
        exact ⟨told, named, place⟩
      next => cases found
    next => cases found
  · rintro ⟨told, named, place⟩
    simp only [told, place, named, if_true]

theorem Piece.path?_eq_none {fields : Fields} {parent : Value}
    (idle : ¬(ItemSort.ofFields fields = .ok .data ∧ (nameOf fields).truthy = true)) :
    (Piece.field fields parent).path? = none := by
  refine Option.eq_none_iff_forall_ne_some.mpr fun path found => idle ?_
  obtain ⟨told, named, _⟩ := path?_eq_some.mp found
  exact ⟨told, named⟩

def listed : Value → List Value
  | .list items => items
  | _ => []

/-- What is listed under a name is listed in the value that stands there. -/
theorem exists_find?_of_listed {fields : Fields} {name : String} {item : Value}
    (member : item ∈ listed (Fields.get fields name)) :
    ∃ value, Keyed.find? fields (.text name) = some value ∧ item ∈ listed value := by
  unfold Fields.get at member
  cases found : Keyed.find? fields (.text name) with
  | none =>
    rw [found] at member
    cases member
  | some value =>
    rw [found] at member
    exact ⟨value, rfl, member⟩

theorem membersOf_cons (key : Scalar) (value : Value) (fields : Fields) :
    membersOf ((key, value) :: fields) = (key, ofList (listed value)) :: membersOf fields := by
  cases value <;> rfl

theorem find?_membersOf (fields : Fields) (key : Scalar) :
    Keyed.find? (membersOf fields) key = (Keyed.find? fields key).map fun value => ofList (listed value) := by
  induction fields with
  | nil => rfl
  | cons field fields ih =>
    rw [membersOf_cons, Keyed.find?_cons, Keyed.find?_cons, ih]
    split <;> rfl

theorem ofValue_object (fields : Fields) : ofValue (.object fields) =
    match ItemSort.ofFields fields with
    | .error fault => .untyped fields fault
    | .ok .container => .container fields (ofList (listed (Fields.get fields "items")))
    | .ok _ => .leaf fields := by
  have members : (Keyed.find? (membersOf fields) (.text "items")).getD [] =
      ofList (listed (Fields.get fields "items")) := by
    rw [find?_membersOf, Fields.get]
    cases Keyed.find? fields (.text "items") <;> rfl
  rw [← members, ofValue]
  rfl

/-- The sort of an item, its name and its path are what is said under four names. -/
theorem placed_congr {fields others : Fields}
    (said : ∀ name ∈ ["type", "name", "dataField", "excludeFromPath"], Fields.get fields name = Fields.get others name) :
    ItemSort.ofFields fields = ItemSort.ofFields others ∧ nameOf fields = nameOf others ∧
      ∀ parent, pathOf fields parent = pathOf others parent := by
  have sort : ItemSort.ofFields fields = ItemSort.ofFields others := by
    unfold ItemSort.ofFields
    rw [said "type" (by decide)]
  have name : nameOf fields = nameOf others := by
    unfold nameOf
    rw [said "name" (by decide), said "dataField" (by decide)]
  refine ⟨sort, name, fun parent => ?_⟩
  unfold pathOf leavesNameOut
  rw [name, sort, said "excludeFromPath" (by decide)]

/-! What an object says beside the items that it holds. -/

/-- Whether objects say the same but for the items that they hold. -/
def AgreeOutside (fields others : Fields) : Prop :=
  ∀ name, name ≠ "items" → Fields.get fields name = Fields.get others name

section Outside

variable {fields others : Fields} (agree : AgreeOutside fields others)

include agree

theorem AgreeOutside.said {names : List String} (other : "items" ∉ names) :
    ∀ name ∈ names, Fields.get fields name = Fields.get others name :=
  fun name member => agree name fun same => other (same ▸ member)

theorem ofFields_congr : ItemSort.ofFields fields = ItemSort.ofFields others :=
  (placed_congr (agree.said (by decide))).1

theorem nameOf_congr : nameOf fields = nameOf others := (placed_congr (agree.said (by decide))).2.1

theorem pathOf_congr (parent : Value) : pathOf fields parent = pathOf others parent :=
  (placed_congr (agree.said (by decide))).2.2 parent

end Outside

section Inside

variable (fields : Fields) (inner : Value)

theorem agree_insert_items : AgreeOutside (Keyed.insert fields (.text "items") inner) fields := by
  intro name apart
  unfold Fields.get
  rw [Keyed.find?_insert_text_other fields apart.symm]

theorem agree_erase_items : AgreeOutside (Keyed.erase fields (.text "items")) fields := by
  intro name apart
  unfold Fields.get
  rw [Keyed.find?_erase, Scalar.coincides_text, beq_false_of_ne apart]
  rfl

theorem erase_insert_items :
    Keyed.erase (Keyed.insert fields (.text "items") inner) (.text "items") = Keyed.erase fields (.text "items") := by
  unfold Keyed.erase
  induction fields with
  | nil => simp [Keyed.insert, Scalar.coincides_text]
  | cons field fields ih =>
    obtain ⟨name, value⟩ := field
    by_cases here : name.coincides (.text "items") = true <;> simp [Keyed.insert, here, ih]

end Inside

theorem piecesOf_perm {items others : List Value} (moved : items.Perm others) (parent : Value) :
    (piecesOf parent (ofList items)).Perm (piecesOf parent (ofList others)) := by
  induction moved with
  | nil => rfl
  | cons item _ ih => exact ih.append_left _
  | swap first second rest =>
    simp only [ofList, piecesOf, ← List.append_assoc]
    exact List.perm_append_comm.append_right _
  | trans _ _ ih ih' => exact ih.trans ih'

theorem piecesOf_arranged {items arranged others : List Value} {parent : Value}
    (each : List.Forall₂ (fun item other => (pieces parent (ofValue item)).Perm (pieces parent (ofValue other)))
      items arranged) (moved : arranged.Perm others) :
    (piecesOf parent (ofList items)).Perm (piecesOf parent (ofList others)) := by
  refine .trans ?_ (piecesOf_perm moved parent)
  clear moved
  induction each with
  | nil => rfl
  | cons first _ ih => exact first.append ih

theorem pieces_rearranged {value other : Value} (rearranged : value.Rearranged other) :
    ∀ parent, (pieces parent (ofValue value)).Perm (pieces parent (ofValue other)) := by
  refine @Value.Rearranged.nested_induction
    (fun value other => ∀ parent, (pieces parent (ofValue value)).Perm (pieces parent (ofValue other))) ?_ ?_ _ _ rearranged
  · exact fun value parent => .rfl
  · intro fields items arranged others held each moved parent
    rw [ofValue_object, ofValue_object, ofFields_congr (agree_insert_items fields _), held, Fields.get,
      Keyed.find?_insert_text_self]
    cases ItemSort.ofFields fields with
    | error fault => rfl
    | ok sort =>
      cases sort with
      | container =>
        simp only [pieces, pathOf_congr (agree_insert_items fields _)]
        cases pathOf fields parent with
        | error fault => rfl
        | ok path => exact piecesOf_arranged (each.imp fun _ _ perm => perm path) moved
      | idle | data =>
        -- what an item holds that is no container is not looked at
        simp only [pieces, erase_insert_items]
        rfl

end Item

namespace Form

def pieces (form : Value) : Except Fault (List Item.Piece) :=
  (Dependency.itemsOf form).map (Item.piecesOf (.text ""))

def dataPaths (form : Value) : List Value :=
  match pieces form with
  | .ok parts => parts.filterMap Item.Piece.path?
  | .error _ => []

/-- Whether no two paths are the same key. -/
def AreDistinct (paths : List Value) : Prop :=
  paths.Pairwise fun path other => ∀ key key', path.asKey = .ok key → other.asKey = .ok key' → key.coincides key' = false

theorem AreDistinct.perm {paths others : List Value} (distinct : AreDistinct paths) (perm : paths.Perm others) :
    AreDistinct others := by
  refine (perm.pairwise_iff fun {path other} apart key key' known known' => ?_).mp distinct
  rw [Scalar.coincides_comm]
  exact apart key' key known' known

theorem itemsOf_list {fields : Fields} {items : List Value} (held : Fields.get fields "items" = .list items) :
    Dependency.itemsOf (.object fields) = .ok (Item.ofList items) := by
  have listed : ((Value.list items).orElse (.list [])).items = .ok items := by cases items <;> rfl
  rw [Dependency.itemsOf_object, held, listed]
  rfl

/-- A form that is rearranged has the same parts, in another order. -/
theorem pieces_perm {form other : Value} (rearranged : form.Rearranged other) :
    (∃ fault, pieces form = .error fault ∧ pieces other = .error fault) ∨
      ∃ parts parts', pieces form = .ok parts ∧ pieces other = .ok parts' ∧ parts.Perm parts' := by
  cases rearranged with
  | same =>
    cases pieces form with
    | error fault => exact .inl ⟨fault, rfl, rfl⟩
    | ok parts => exact .inr ⟨parts, parts, rfl, rfl, .refl parts⟩
  | @inside fields items arranged others held each moved =>
    have held' : Fields.get (Keyed.insert fields (.text "items") (.list others)) "items" = .list others := by
      rw [Fields.get, Keyed.find?_insert_text_self]
      rfl
    unfold pieces
    rw [itemsOf_list held, itemsOf_list held']
    refine .inr ⟨_, _, rfl, rfl, Item.piecesOf_arranged ?_ moved⟩
    exact each.imp fun _ _ rearranged => Item.pieces_rearranged rearranged _

theorem dataPaths_distinct {form other : Value} (rearranged : form.Rearranged other)
    (distinct : AreDistinct (dataPaths form)) : AreDistinct (dataPaths other) := by
  unfold dataPaths at distinct ⊢
  obtain ⟨fault, _, right⟩ | ⟨parts, parts', left, right, perm⟩ := pieces_perm rearranged
  · rw [right]
    exact .nil
  · rw [left] at distinct
    rw [right]
    exact distinct.perm (perm.filterMap _)

end Form

end FormRules

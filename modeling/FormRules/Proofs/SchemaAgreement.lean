import FormRules.Proofs.CanonicalText
import FormRules.Schema.Document
import Mathlib.Data.List.Forall2
import Mathlib.Order.Basic

/-! Schemas that are the same document accept the same values. Only which of several unmet demands comes first
depends on the order of names. -/

namespace FormRules

namespace Json

/-- A document and one that is the same are equal, or both of them are lists or objects. -/
theorem SameDocument.outline {value other : Value} (same : SameDocument false value other) :
    value = other ∨ (∃ items others, value = .list items ∧ other = .list others ∧
        List.Forall₂ (SameDocument false) items others) ∨
      ∃ fields others arranged, value = .object fields ∧ other = .object others ∧ arranged.Perm others ∧
        List.Forall₂ (SameField false) fields arranged := by
  cases same with
  | scalar _ => exact .inl rfl
  | handle _ => exact .inl rfl
  | text shown shown' => exact .inl (by rw [eq_text_of_textOf? shown, eq_text_of_textOf? shown'])
  | list related => exact .inr (.inl ⟨_, _, rfl, rfl, related⟩)
  | object perm related => exact .inr (.inr ⟨_, _, _, rfl, rfl, perm, related⟩)

end Json

namespace Schema

open Json (SameDocument SameField)

/-! A schema document is read field by field. -/

/-- What a field of a document holds. -/
def partsOfValue : Value → Parts
  | .list items => ⟨.list items, [], items.map ofValue⟩
  | value => ⟨value, ofValue value, []⟩

/-- The demand that a field of a document makes. -/
def demandOf? (field : Scalar × Value) : Option Demand :=
  match field.1 with
  | .text name => demand? name (partsOfValue field.2)
  | _ => none

theorem ofList_eq_map (items : List Value) : ofList items = items.map ofValue := by
  induction items with
  | nil => rfl
  | cons item items ih => rw [ofList, ih, List.map_cons]

theorem partsOf_eq_map (fields : Fields) : partsOf fields = fields.map fun field => (field.1, partsOfValue field.2) := by
  induction fields with
  | nil => rfl
  | cons field fields ih =>
    obtain ⟨key, value⟩ := field
    cases value with
    | list items => rw [partsOf, ih, List.map_cons, partsOfValue, ofList_eq_map]
    | scalar _ | object _ | handle _ =>
      rw [partsOf, ih, List.map_cons, partsOfValue] <;> exact nofun

theorem ofValue_object (fields : Fields) : ofValue (.object fields) = fields.filterMap demandOf? := by
  rw [ofValue, demandsOf, partsOf_eq_map, List.filterMap_map]
  rfl

/-! Demands that differ in nothing that a value could show. -/

/-- Demands of one sort that every value meets or fails alike. -/
structure Demand.Same (first second : Demand) : Prop where
  keyword : first.keyword = second.keyword
  meets : ∀ value, meets value first = Schema.meets value second

theorem Demand.Same.refl (demand : Demand) : demand.Same demand := ⟨rfl, fun _ => rfl⟩

theorem violated?_same {demands others : List Demand} (same : List.Forall₂ Demand.Same demands others) (value : Value) :
    violated? value demands = violated? value others := by
  induction same with
  | nil => rfl
  | cons here _ ih => rw [violated?, violated?, ih, here.meets, here.keyword]

/-- Demands that every value meets alike, but for the cause of a fault. -/
def Demand.Agree (first second : Demand) : Prop := ∀ value, Alike (meets value first) (meets value second)

/-- Lists of demands that every value meets alike, but for the cause of a fault. -/
def Agree (first second : List Demand) : Prop := ∀ value, Alike (meetsAll value first) (meetsAll value second)

theorem Demand.Same.agree {first second : Demand} (same : first.Same second) : first.Agree second :=
  fun value => .of_eq (same.meets value)

theorem agree_of_forall₂ {demands others : List Demand} (same : List.Forall₂ Demand.Agree demands others) :
    Agree demands others := by
  intro value
  induction same with
  | nil => exact .refl _
  | cons here _ ih => exact (here value).bind fun _ => ih.bind fun _ => .refl _

/-- All demands are looked at, so that their order is of no account. -/
theorem agree_of_perm {demands others : List Demand} (perm : demands.Perm others) : Agree demands others := by
  intro value
  induction perm with
  | nil => exact .refl _
  | cons demand _ ih => exact .bind (.refl _) fun _ => ih.bind fun _ => .refl _
  | swap first second rest =>
    simp only [meetsAll]
    cases meets value first <;> cases meets value second <;> cases meetsAll value rest <;>
      simp [Alike, bind, Except.bind, pure, Except.pure, Except.toOption, Bool.and_left_comm]
  | trans _ _ ih ih' => exact ih.trans ih'

theorem meetsAny_alike {options others : List (List Demand)} (same : List.Forall₂ Agree options others) (value : Value) :
    Alike (meetsAny value options) (meetsAny value others) := by
  induction same with
  | nil => exact .refl _
  | cons here _ ih =>
    refine (here value).bind fun met => ?_
    cases met with
    | true => exact .refl _
    | false => exact ih

/-! Fields of the same name with the same document. -/

theorem matchesPattern_same {pattern other : Value} (same : SameDocument false pattern other) (text : String) :
    matchesPattern pattern text = matchesPattern other text := by
  obtain rfl | ⟨_, _, rfl, rfl, _⟩ | ⟨_, _, _, rfl, rfl, _⟩ := same.outline <;> rfl

theorem compare_same {limit other : Value} (same : SameDocument false limit other) (n : Number)
    (comparison : Comparison) : Value.compare comparison (.number n) limit = Value.compare comparison (.number n) other := by
  obtain rfl | ⟨_, _, rfl, rfl, _⟩ | ⟨_, _, _, rfl, rfl, _⟩ := same.outline <;> rfl

theorem within_same {limit other : Value} (same : SameDocument false limit other) (keyword : Keyword) (value : Value) :
    within keyword limit value = within keyword other value := by
  unfold within
  split <;> simp only [compare_same same]

/-- The names of demands whose parts are schemas or constants. -/
def isNested (name : String) : Bool := name == "const" || name == "anyOf" || name == "not"

theorem demand?_of_other {name : String} {parts : Parts} (inner : isNested name = false) (typed : name ≠ "type")
    (matched : name ≠ "pattern") : demand? name parts = (limits.lookup name).map (.bound · parts.value) := by
  simp only [isNested, Bool.or_eq_false_iff, beq_eq_false_iff_ne] at inner
  unfold demand?
  split <;> simp_all

theorem demand?_same {name : String} {value other : Value} (inner : isNested name = false)
    (same : SameDocument false value other) :
    Option.Rel Demand.Same (demand? name (partsOfValue value)) (demand? name (partsOfValue other)) := by
  have holds (value : Value) : (partsOfValue value).value = value := by cases value <;> rfl
  by_cases typed : name = "type"
  · subst typed
    obtain rfl | ⟨_, _, rfl, rfl, _⟩ | ⟨_, _, _, rfl, rfl, _⟩ := same.outline
    · cases demand? "type" (partsOfValue value) with
      | none => exact .none
      | some demand => exact .some (.refl demand)
    · exact .none
    · exact .none
  · by_cases matched : name = "pattern"
    · subst matched
      have made (value : Value) : demand? "pattern" (partsOfValue value) = some (.pattern value) := by
        cases value <;> rfl
      rw [made, made]
      refine .some ⟨rfl, fun shown => ?_⟩
      cases shown with
      | scalar s =>
        cases s with
        | text text => exact matchesPattern_same same text
        | _ => rfl
      | _ => rfl
    · rw [demand?_of_other inner typed matched, demand?_of_other inner typed matched, holds, holds]
      cases limits.lookup name with
      | none => exact .none
      | some keyword => exact .some ⟨rfl, within_same same keyword⟩

/-! Schemas that are the same document agree, however deep they are. -/

/-- Whether the constants of a schema are scalars, as deep as its demands look. -/
inductive HasSimpleConstants : Value → Prop
  | scalar (scalar : Scalar) : HasSimpleConstants (.scalar scalar)
  | handle (name : String) : HasSimpleConstants (.handle name)
  | list {items : List Value} : (∀ item ∈ items, HasSimpleConstants item) → HasSimpleConstants (.list items)
  | object {fields : Fields} : (∀ value, (.text "const", value) ∈ fields → ∃ scalar, value = .scalar scalar) →
      (∀ name value, isNested name = true → (.text name, value) ∈ fields → HasSimpleConstants value) →
      HasSimpleConstants (.object fields)

/-- Values that agree where a demand reads them as a schema or as a list of schemas. -/
structure PartsAgree (value other : Value) : Prop where
  single : Agree (ofValue value) (ofValue other)
  listed : List.Forall₂ Agree (partsOfValue value).listed (partsOfValue other).listed

theorem PartsAgree.refl (value : Value) : PartsAgree value value :=
  ⟨fun _ => .refl _, List.forall₂_same.mpr fun _ _ _ => .refl _⟩

theorem single_eq (value : Value) : (partsOfValue value).single = ofValue value := by cases value <;> rfl

theorem demand?_agree {name : String} {value other : Value} (same : SameDocument false value other)
    (constant : name = "const" → ∃ scalar, value = .scalar scalar)
    (parts : isNested name = true → PartsAgree value other) :
    Option.Rel Demand.Agree (demand? name (partsOfValue value)) (demand? name (partsOfValue other)) := by
  cases inner : isNested name with
  | false =>
    have related := demand?_same inner same
    generalize demand? name (partsOfValue value) = first? at related ⊢
    generalize demand? name (partsOfValue other) = second? at related ⊢
    cases related with
    | none => exact .none
    | some same => exact .some same.agree
  | true =>
    obtain ⟨single, listed⟩ := parts inner
    simp only [isNested, Bool.or_eq_true, beq_iff_eq] at inner
    obtain (rfl | rfl) | rfl := inner
    · obtain ⟨scalar, rfl⟩ := constant rfl
      obtain rfl | ⟨_, _, impossible, _⟩ | ⟨_, _, _, impossible, _⟩ := same.outline
      · exact .some (Demand.Same.refl _).agree
      · cases impossible
      · cases impossible
    · exact .some (meetsAny_alike listed)
    · refine .some fun shown => ?_
      have inner := single shown
      rw [← single_eq value, ← single_eq other] at inner
      obtain ⟨met, first, second⟩ | ⟨_, _, first, second⟩ := inner.same_or_faults <;>
        simp [Alike, meets, first, second, Except.map, Except.toOption]

/-- The names that a document gives as texts; no other data is written as one of them. -/
theorem demandOf?_named {key : Scalar} {name : String} (named : Json.nameOf key = .ok name) (value : Value) :
    demandOf? (key, value) = demand? name (partsOfValue value) := by
  cases key with
  | text text =>
    cases named
    rfl
  | null =>
    cases named
    cases value <;> rfl
  | bool b =>
    cases named
    cases b <;> cases value <;> rfl
  | number n =>
    cases named
    have word {known : String} (other : Json.isOtherWord known = true) : Json.writeNumber n ≠ known :=
      Json.writeNumber_ne n other
    have inner : isNested (Json.writeNumber n) = false := by
      simp only [isNested, Bool.or_eq_false_iff, beq_eq_false_iff_ne]
      exact ⟨⟨word rfl, word rfl⟩, word rfl⟩
    have unlisted : limits.lookup (Json.writeNumber n) = none := by
      have others : ∀ entry ∈ limits, Json.isOtherWord entry.1 = true := by decide
      exact List.lookup_eq_none_iff.mpr fun entry listed => bne_iff_ne.mpr (word (others entry listed))
    rw [demand?_of_other inner (word rfl) (word rfl), unlisted]
    rfl
  | date d => cases named
  | moment m => cases named

/-- Fields that are the same make demands that agree. -/
theorem demandOf?_agree {field other : Scalar × Value} (same : SameField false field other)
    (constant : field.1 = .text "const" → ∃ scalar, field.2 = .scalar scalar)
    (parts : ∀ name, field.1 = .text name → isNested name = true → ∀ value, SameDocument false field.2 value →
      PartsAgree field.2 value) : Option.Rel Demand.Agree (demandOf? field) (demandOf? other) := by
  cases same with
  | @keyed key value value' same =>
    cases key with
    | text name =>
      exact demand?_agree same (fun called => constant (by rw [called])) fun inner => parts name rfl inner value' same
    | _ => exact .none
  | @named key key' name value value' found found' same =>
    rw [demandOf?_named found']
    cases key with
    | text _ =>
      cases found
      exact demand?_agree same (fun called => constant (by rw [called])) fun inner => parts name rfl inner value' same
    | _ =>
      rw [← demandOf?_named found value']
      exact .none

/-- Schemas that are the same document agree, if their constants are scalars. -/
theorem partsAgree_of_same {value : Value} : ∀ {other : Value}, SameDocument false value other →
    HasSimpleConstants value → PartsAgree value other := by
  induction value using Value.nested_induction with
  | scalar s =>
    intro other same _
    obtain rfl | ⟨_, _, impossible, _⟩ | ⟨_, _, _, impossible, _⟩ := same.outline
    · exact .refl _
    · cases impossible
    · cases impossible
  | handle name =>
    intro other same _
    obtain rfl | ⟨_, _, impossible, _⟩ | ⟨_, _, _, impossible, _⟩ := same.outline
    · exact .refl _
    · cases impossible
    · cases impossible
  | list items ih =>
    intro other same simple
    cases same with
    | text shown _ => cases shown
    | list related =>
      cases simple with
      | list each =>
        refine ⟨fun _ => .refl _, ?_⟩
        simp only [partsOfValue, List.forall₂_map_left_iff, List.forall₂_map_right_iff]
        exact Json.forall₂_of_mem related fun item member _ _ same => (ih item member same (each item member)).single
  | object fields ih =>
    intro other same simple
    cases same with
    | text shown _ => cases shown
    | @object _ others arranged perm related =>
      cases simple with
      | object constant nested =>
        refine ⟨?_, .nil⟩
        have demands : List.Forall₂ Demand.Agree (fields.filterMap demandOf?) (arranged.filterMap demandOf?) := by
          refine List.rel_filterMap (fun _ _ agree => agree) (Json.forall₂_of_mem related fun field member _ _ same => ?_)
          obtain ⟨key, value⟩ := field
          refine demandOf?_agree same ?_ ?_
          · rintro rfl
            exact constant value member
          · rintro name rfl inner _ same
            exact ih _ member same (nested name value inner member)
        rw [ofValue_object, ofValue_object]
        exact fun value => (agree_of_forall₂ demands value).trans (agree_of_perm (perm.filterMap _) value)

end Schema

end FormRules

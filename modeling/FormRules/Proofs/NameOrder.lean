import FormRules.Proofs.CanonicalText
import FormRules.Proofs.KeyedOrder
import Mathlib.Data.List.Sort
import Mathlib.Data.String.Basic

/-! The order of names. A canonical text does not show in which order an object has its names, as long as these are
texts and none is there twice. -/

namespace FormRules

/-- A value in which one object has its names in another order, itself or at some depth. -/
inductive Value.Reordered : Value → Value → Prop
  | names {fields others : Fields} : (∀ field ∈ fields, (Value.scalar field.1).isText = true) → Keyed.Distinct fields →
      fields.Perm others → Reordered (.object fields) (.object others)
  | item {before after : List Value} {item other : Value} : Reordered item other →
      Reordered (.list (before ++ item :: after)) (.list (before ++ other :: after))
  | member {before after : Fields} {key : Scalar} {value other : Value} : Reordered value other →
      Reordered (.object (before ++ (key, value) :: after)) (.object (before ++ (key, other) :: after))

namespace Json

section Sorting

variable {α : Type}

/-- Whether one entry comes before another one by their names. -/
def Precedes (first second : Scalar × α) : Prop :=
  ∃ name other : String, first.1 = .text name ∧ second.1 = .text other ∧ name < other

theorem Precedes.trans {first second third : Scalar × α} (left : Precedes first second) (right : Precedes second third) :
    Precedes first third := by
  obtain ⟨name, middle, here, between, before⟩ := left
  obtain ⟨middle', other, between', there, after⟩ := right
  obtain rfl := Scalar.text.inj (between.symm.trans between')
  exact ⟨name, other, here, there, before.trans after⟩

theorem Precedes.asymm {first second : Scalar × α} (left : Precedes first second) : ¬Precedes second first := by
  intro right
  obtain ⟨name, other, here, there, before⟩ := left.trans right
  obtain rfl := Scalar.text.inj (here.symm.trans there)
  exact lt_irrefl name before

theorem compare_less_text (name other : String) :
    (Scalar.text name).compare .less (.text other) = .ok (decide (name < other)) := rfl

/-- A new name finds its place among sorted ones. -/
theorem insertByKey_sorted {name : String} {entry : α} {entries : List (Scalar × α)}
    (named : ∀ other ∈ entries, ∃ known : String, other.1 = .text known) (new : ∀ other ∈ entries, other.1 ≠ .text name)
    (sorted : entries.Pairwise Precedes) :
    ∃ later, insertByKey (.text name) entry entries = .ok later ∧ later.Pairwise Precedes := by
  induction entries with
  | nil => exact ⟨_, rfl, List.pairwise_singleton _ _⟩
  | cons first rest ih =>
    obtain ⟨key, old⟩ := first
    obtain ⟨text, texts⟩ := List.forall_mem_cons.mp named
    obtain ⟨other, rfl⟩ : ∃ other : String, key = .text other := text
    obtain ⟨apart, new⟩ := List.forall_mem_cons.mp new
    obtain ⟨first, rest'⟩ := List.pairwise_cons.mp sorted
    simp only [insertByKey, compare_less_text]
    by_cases before : name < other
    · refine ⟨_, if_pos (decide_eq_true before), List.pairwise_cons.mpr ⟨fun later member => ?_, sorted⟩⟩
      have next : Precedes (.text name, entry) (Scalar.text other, old) := ⟨name, other, rfl, rfl, before⟩
      obtain rfl | member := List.mem_cons.mp member
      · exact next
      · exact next.trans (first later member)
    · obtain ⟨later, inserted, sorted⟩ := ih texts new rest'
      refine ⟨(.text other, old) :: later, ?_, List.pairwise_cons.mpr ⟨fun further member => ?_, sorted⟩⟩
      · rw [inserted]
        exact if_neg (by simpa using before)
      · obtain rfl | member := List.mem_cons.mp ((insertByKey_perm inserted).subset member)
        · have unequal : other ≠ name := fun same => apart (by rw [same])
          exact ⟨other, name, rfl, rfl, lt_of_le_of_ne (not_lt.mp before) unequal⟩
        · exact first further member

theorem sortByKey_sorted {entries : Keyed α} (named : ∀ entry ∈ entries, ∃ name : String, entry.1 = .text name)
    (distinct : entries.Distinct) : ∃ sorted, sortByKey entries = .ok sorted ∧ sorted.Pairwise Precedes := by
  have step {before : List (Scalar × α)} (known : ∀ entry ∈ before, ∃ name : String, entry.1 = .text name)
      (apart : ∀ entry ∈ entries, ∀ other ∈ before, other.1 ≠ entry.1) (sorted : before.Pairwise Precedes) :
      ∃ sorted, entries.foldlM (fun sorted entry => insertByKey entry.1 entry.2 sorted) before = .ok sorted ∧
        sorted.Pairwise Precedes := by
    induction entries generalizing before with
    | nil => exact ⟨before, rfl, sorted⟩
    | cons entry entries ih =>
      obtain ⟨key, value⟩ := entry
      obtain ⟨text, texts⟩ := List.forall_mem_cons.mp named
      obtain ⟨name, rfl⟩ : ∃ name : String, key = .text name := text
      obtain ⟨new, apart⟩ := List.forall_mem_cons.mp apart
      obtain ⟨others, distinct⟩ := List.pairwise_cons.mp distinct
      obtain ⟨later, inserted, sorted⟩ : ∃ later, insertByKey (.text name) value before = .ok later ∧ later.Pairwise Precedes :=
        insertByKey_sorted known new sorted
      have held := insertByKey_perm inserted
      have known' : ∀ other ∈ later, ∃ name : String, other.1 = .text name := by
        intro other member
        obtain rfl | member := List.mem_cons.mp (held.subset member)
        · exact ⟨name, rfl⟩
        · exact known other member
      have apart' : ∀ further ∈ entries, ∀ other ∈ later, other.1 ≠ further.1 := by
        intro further among other member
        obtain rfl | member := List.mem_cons.mp (held.subset member)
        · intro same
          have unequal := others further among
          rw [← same, Scalar.coincides_text, beq_self_eq_true] at unequal
          cases unequal
        · exact apart further among other member
      obtain ⟨last, ended, sorted⟩ := ih texts distinct known' apart' sorted
      refine ⟨last, ?_, sorted⟩
      rw [List.foldlM_cons, inserted]
      exact ended
  exact step (List.forall_mem_nil _) (fun _ _ => List.forall_mem_nil _) .nil

/-- Entries under distinct texts are sorted to the same, in whatever order they come. -/
theorem sortByKey_eq_of_perm {entries others : Keyed α} (named : ∀ entry ∈ entries, ∃ name : String, entry.1 = .text name)
    (distinct : entries.Distinct) (perm : entries.Perm others) : sortByKey entries = sortByKey others := by
  obtain ⟨sorted, ended, ordered⟩ := sortByKey_sorted named distinct
  obtain ⟨sorted', ended', ordered'⟩ :=
    sortByKey_sorted (fun entry member => named entry (perm.mem_iff.mpr member)) (distinct.perm perm)
  have same : sorted.Perm sorted' := (sortByKey_perm ended).trans (perm.trans (sortByKey_perm ended').symm)
  rw [ended, ended', same.eq_of_pairwise (fun _ _ _ _ left right => (left.asymm right).elim) ordered ordered']

end Sorting

/-- The canonical text does not show the order of names. -/
theorem canonical_reordered (asText : Bool) {value other : Value} (reordered : value.Reordered other) :
    canonical asText value = canonical asText other := by
  induction reordered with
  | names named distinct perm =>
    rw [canonical, canonical, canonicalFields_eq_map, canonicalFields_eq_map,
      sortByKey_eq_of_perm ?named ?distinct (perm.map _)]
    case named =>
      intro entry member
      obtain ⟨field, inside, rfl⟩ := List.mem_map.mp member
      obtain ⟨name, shape⟩ := Value.isText_iff.mp (named field inside)
      exact ⟨name, Value.scalar.inj shape⟩
    case distinct => exact List.pairwise_map.mpr distinct
  | item _ ih =>
    simp only [canonical, canonicalItems_eq_mapM, List.mapM_append, List.mapM_cons, ih]
  | member _ ih =>
    simp only [canonical, canonicalFields_eq_map, List.map_append, List.map_cons, ih]

end Json

end FormRules

import Mathlib.Data.List.Induction

/-! Lists of names, which may be written in several ways: lists in which no two names are equal, and what is
left of a list when later ones among equal names are dropped. -/

namespace FormRules

variable {α : Type} [BEq α]

/-- Names of which no two are equal. -/
def Distinct (names : List α) : Prop := names.Pairwise fun first second => (first == second) = false

namespace Distinct

theorem sublist {names some : List α} (distinct : Distinct names) (among : some.Sublist names) : Distinct some :=
  List.Pairwise.sublist among distinct

theorem not_contains {name : α} {names : List α} (distinct : Distinct (name :: names)) :
    names.contains name = false := by
  rw [Bool.eq_false_iff, ne_eq, List.contains_iff_exists_mem_beq]
  rintro ⟨other, member, equal⟩
  exact Bool.false_ne_true (((List.pairwise_cons.mp distinct).1 other member).symm.trans equal)

variable [EquivBEq α]

theorem append_singleton {names : List α} {name : α} (distinct : Distinct names)
    (new : names.contains name = false) : Distinct (names ++ [name]) := by
  refine List.pairwise_append.mpr ⟨distinct, List.pairwise_singleton _ _, ?_⟩
  intro first member second last
  obtain rfl := List.mem_singleton.mp last
  refine Bool.eq_false_iff.mpr fun equal => Bool.eq_false_iff.mp new ?_
  exact List.contains_iff_exists_mem_beq.mpr ⟨first, member, BEq.symm equal⟩

/-- Of items that are known by distinct names, each is the one that its name finds. -/
theorem find?_eq {β : Type} {items : List β} {called : β → α} (distinct : Distinct (items.map called)) {item : β}
    (member : item ∈ items) {name : α} (equal : (called item == name) = true) :
    items.find? (called · == name) = some item := by
  induction items with
  | nil => cases member
  | cons first rest ih =>
    obtain ⟨apart, distinct⟩ := List.pairwise_cons.mp distinct
    cases member with
    | head => exact List.find?_cons_of_pos (p := (called · == name)) equal
    | tail _ member =>
      have other : ¬(called first == name) = true := by
        rw [← BEq.congr_right equal, apart _ (List.mem_map_of_mem member)]
        exact Bool.false_ne_true
      rw [List.find?_cons_of_neg (p := (called · == name)) other]
      exact ih distinct member

theorem countP_beq {names : List α} (distinct : Distinct names) (name : α) :
    names.countP (· == name) = if names.contains name then 1 else 0 := by
  induction names with
  | nil => rfl
  | cons first rest ih =>
    rw [List.countP_cons, ih (List.pairwise_cons.mp distinct).2, List.contains_cons, BEq.comm (a := name)]
    cases here : first == name with
    | false => simp
    | true =>
      have absent := distinct.not_contains
      rw [List.contains_congr here] at absent
      simp [absent]

private theorem countP_contains_cons {name : α} {names : List α} (new : names.contains name = false)
    (others : List α) :
    others.countP (name :: names).contains = others.countP (· == name) + others.countP names.contains := by
  induction others with
  | nil => rfl
  | cons other others ih =>
    rw [List.countP_cons, List.countP_cons, List.countP_cons, ih, List.contains_cons]
    cases here : other == name with
    | false =>
      simp only [Bool.false_or, Bool.false_eq_true, if_false]
      omega
    | true =>
      rw [List.contains_congr here, new]
      simp only [Bool.or_false, Bool.false_eq_true, if_true, if_false]
      omega

/-- Of two lists of distinct names, each has as many names of the other. -/
theorem countP_contains_comm {names others : List α} (distinct : Distinct names) (apart : Distinct others) :
    names.countP others.contains = others.countP names.contains := by
  induction names with
  | nil =>
    rw [List.countP_nil, eq_comm, List.countP_eq_zero]
    simp
  | cons name names ih =>
    rw [countP_contains_cons distinct.not_contains, apart.countP_beq, List.countP_cons,
      ih (List.pairwise_cons.mp distinct).2, Nat.add_comm]

/-- There are no more distinct names than names that they are among. -/
theorem length_le {names others : List α} (distinct : Distinct names) (apart : Distinct others)
    (among : ∀ name ∈ names, others.contains name = true) : names.length ≤ others.length := by
  have all : names.countP others.contains = names.length := List.countP_eq_length.mpr among
  rw [← all, distinct.countP_contains_comm apart]
  exact List.countP_le_length

end Distinct

section EraseDups

/-- Adds a name unless it is there. -/
def addNew (held : List α) (name : α) : List α := if held.contains name then held else held ++ [name]

/-- Adding names one after the other adds the first ones among equal names. -/
theorem foldl_addNew (held names : List α) :
    names.foldl addNew held = held ++ (names.filter (!held.contains ·)).eraseDups := by
  induction names generalizing held with
  | nil => simp
  | cons name names ih =>
    rw [List.foldl_cons, ih, addNew]
    cases here : held.contains name with
    | true => rw [if_pos rfl, List.filter_cons_of_neg (by simp [here])]
    | false =>
      rw [if_neg Bool.false_ne_true, List.filter_cons_of_pos (by simp [here]), List.eraseDups_cons,
        List.append_assoc, List.singleton_append, List.filter_filter]
      refine congrArg (fun names : List α => held ++ name :: names.eraseDups) (List.filter_congr fun other _ => ?_)
      rw [List.contains_append, Bool.not_or, Bool.and_comm]
      simp

theorem eraseDups_eq_foldl (names : List α) : names.eraseDups = names.foldl addNew [] := by
  rw [foldl_addNew, List.nil_append]
  exact congrArg _ (List.filter_eq_self.mpr fun _ _ => rfl).symm

theorem eraseDups_subset (names : List α) : names.eraseDups ⊆ names := by
  rw [eraseDups_eq_foldl]
  refine List.foldlRecOn names addNew (motive := (· ⊆ names)) (List.nil_subset _) fun held among name member => ?_
  unfold addNew
  split
  · exact among
  · exact List.append_subset.mpr ⟨among, List.forall_mem_singleton.mpr member⟩

variable [EquivBEq α]

private theorem contains_foldl_addNew (held names : List α) (name : α) :
    (names.foldl addNew held).contains name = (held.contains name || names.contains name) := by
  induction names generalizing held with
  | nil => simp
  | cons first rest ih =>
    rw [List.foldl_cons, ih, List.contains_cons, addNew]
    split
    next old =>
      cases here : name == first with
      | false => simp
      | true => simp [List.contains_congr here, old]
    next => simp [Bool.or_assoc]

theorem contains_eraseDups (names : List α) (name : α) : names.eraseDups.contains name = names.contains name := by
  rw [eraseDups_eq_foldl, contains_foldl_addNew]
  simp

theorem eraseDups_concat (names : List α) (name : α) :
    (names ++ [name]).eraseDups = if names.contains name then names.eraseDups else names.eraseDups ++ [name] := by
  rw [eraseDups_eq_foldl, List.foldl_append, ← eraseDups_eq_foldl, ← contains_eraseDups]
  rfl

theorem distinct_eraseDups (names : List α) : Distinct names.eraseDups := by
  induction names using List.reverseRecOn with
  | nil => exact List.Pairwise.nil
  | append_singleton names name ih =>
    rw [eraseDups_concat]
    split
    · exact ih
    next new => exact ih.append_singleton (by rw [contains_eraseDups]; exact Bool.eq_false_iff.mpr new)

theorem eraseDups_append (names others : List α) :
    (names ++ others).eraseDups = names.eraseDups ++ (others.filter (!names.contains ·)).eraseDups := by
  rw [eraseDups_eq_foldl, List.foldl_append, ← eraseDups_eq_foldl, foldl_addNew]
  simp only [contains_eraseDups]

theorem Distinct.eraseDups_eq {names : List α} (distinct : Distinct names) : names.eraseDups = names := by
  induction names using List.reverseRecOn with
  | nil => rfl
  | append_singleton names name ih =>
    obtain ⟨distinct, _, apart⟩ := List.pairwise_append.mp distinct
    rw [eraseDups_concat, if_neg, ih distinct]
    intro held
    obtain ⟨other, member, equal⟩ := List.contains_iff_exists_mem_beq.mp held
    have unequal := apart other member name List.mem_cons_self
    exact Bool.false_ne_true (unequal.symm.trans (BEq.symm equal))

end EraseDups

end FormRules

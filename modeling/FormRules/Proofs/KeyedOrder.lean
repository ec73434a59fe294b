import FormRules.Proofs.KeyedEntries
import Mathlib.Data.List.Perm.Basic

/-! Entries in another order. What is looked up does not tell them apart as long as no key is there twice, and what is
put under keys gives the same entries, again in another order. -/

namespace FormRules.Keyed

variable {α : Type} {entries others : Keyed α} {key other : Scalar}

theorem Distinct.perm (distinct : entries.Distinct) (perm : entries.Perm others) : others.Distinct :=
  (perm.pairwise_iff fun {first second} apart => by rw [Scalar.coincides_comm]; exact apart).mp distinct

/-- A key that is the same as one of two keys is another one than the second. -/
theorem apart_of_same (apart : key.coincides other = false) {name : Scalar} (same : key.coincides name = true) :
    other.coincides name = false := by
  rw [Scalar.coincides_comm, ← Scalar.coincides_congr same other]
  exact apart

theorem find?_perm (perm : entries.Perm others) (distinct : entries.Distinct) (key : Scalar) :
    find? entries key = find? others key := by
  induction perm with
  | nil => rfl
  | cons first _ ih => rw [find?_cons, find?_cons, ih distinct.of_cons]
  | swap first second rest =>
    have apart : second.1.coincides first.1 = false := List.rel_of_pairwise_cons distinct List.mem_cons_self
    rw [find?_cons, find?_cons, find?_cons, find?_cons]
    by_cases here : second.1.coincides key = true
    · rw [if_pos here, if_neg (Bool.eq_false_iff.mp (apart_of_same apart here)), if_pos here]
    · rw [if_neg here, if_neg here]
  | trans perm _ ih ih' => rw [ih distinct, ih' (distinct.perm perm)]

theorem insert_cons (first : Scalar × α) (rest : Keyed α) (key : Scalar) (entry : α) :
    insert (first :: rest) key entry =
      if first.1.coincides key then (first.1, entry) :: rest else first :: insert rest key entry := rfl

theorem insert_perm (perm : entries.Perm others) (distinct : entries.Distinct) (key : Scalar) (entry : α) :
    (insert entries key entry).Perm (insert others key entry) := by
  induction perm with
  | nil => rfl
  | cons first perm ih =>
    rw [insert_cons, insert_cons]
    split
    · exact perm.cons _
    · exact (ih distinct.of_cons).cons _
  | swap first second rest =>
    have apart : second.1.coincides first.1 = false := List.rel_of_pairwise_cons distinct List.mem_cons_self
    rw [insert_cons, insert_cons, insert_cons, insert_cons]
    by_cases here : second.1.coincides key = true
    · rw [if_pos here, if_neg (Bool.eq_false_iff.mp (apart_of_same apart here)), if_pos here]
      exact .swap ..
    · rw [if_neg here, if_neg here]
      split <;> exact .swap ..
  | trans perm _ ih ih' => exact (ih distinct).trans (ih' (distinct.perm perm))

/-- What is put under keys that are not the same may be put there in either order. -/
theorem insert_insert_perm (entries : Keyed α) (apart : key.coincides other = false) (entry more : α) :
    (insert (insert entries key entry) other more).Perm (insert (insert entries other more) key entry) := by
  induction entries with
  | nil =>
    have apart' : other.coincides key = false := by rw [Scalar.coincides_comm]; exact apart
    simp only [insert, apart, apart', Bool.false_eq_true, if_false]
    exact .swap ..
  | cons first rest ih =>
    by_cases here : first.1.coincides key = true
    · have later : first.1.coincides other ≠ true := by
        rw [Scalar.coincides_congr here, apart]
        exact Bool.false_ne_true
      rw [insert_cons, if_pos here, insert_cons, if_neg later, insert_cons, if_neg later, insert_cons, if_pos here]
    · rw [insert_cons, if_neg here, insert_cons, insert_cons first]
      split
      next => rw [insert_cons, if_neg here]
      next =>
        rw [insert_cons, if_neg here]
        exact ih.cons _

theorem merge_cons (entries : Keyed α) (next : Scalar × α) (rest : Keyed α) :
    merge entries (next :: rest) = merge (insert entries next.1 next.2) rest := rfl

/-- What is under a key stays there as other entries come under other keys. -/
theorem mem_merge_of_absent {more : Keyed α} {member : Scalar × α} (inside : member ∈ entries)
    (absent : find? more member.1 = none) : member ∈ merge entries more := by
  induction more generalizing entries with
  | nil => exact inside
  | cons next rest ih =>
    have apart := find?_eq_none.mp absent
    have here : member.1.coincides next.1 = false := by
      rw [Scalar.coincides_comm]
      exact apart next List.mem_cons_self
    have rest : find? rest member.1 = none :=
      find?_eq_none.mpr fun other later => apart other (List.mem_cons_of_mem _ later)
    exact ih (mem_insert_of_apart inside here) rest

theorem Distinct.merge (distinct : entries.Distinct) (more : Keyed α) : (merge entries more).Distinct := by
  induction more generalizing entries with
  | nil => exact distinct
  | cons next rest ih => exact ih (distinct.insert next.1 next.2)

theorem merge_perm_left (perm : entries.Perm others) (distinct : entries.Distinct) (more : Keyed α) :
    (merge entries more).Perm (merge others more) := by
  induction more generalizing entries others with
  | nil => exact perm
  | cons next rest ih => exact ih (insert_perm perm distinct next.1 next.2) (distinct.insert next.1 next.2)

/-- Entries under keys of their own may be added in any order. -/
theorem merge_perm {more further : Keyed α} (added : more.Perm further) (apart : more.Distinct) (entries : Keyed α)
    (distinct : entries.Distinct) : (merge entries more).Perm (merge entries further) := by
  induction added generalizing entries with
  | nil => rfl
  | cons next _ ih => exact ih apart.of_cons _ (distinct.insert next.1 next.2)
  | swap first second rest =>
    -- the entries differ in order from here on, and what is added to them is the same
    have other : second.1.coincides first.1 = false := List.rel_of_pairwise_cons apart List.mem_cons_self
    rw [merge_cons, merge_cons, merge_cons entries, merge_cons]
    refine merge_perm_left (insert_insert_perm entries other second.2 first.2) ?_ rest
    exact (distinct.insert _ _).insert _ _
  | trans perm _ ih ih' => exact (ih apart entries distinct).trans (ih' (apart.perm perm) entries distinct)

section Values

variable {β : Type} (f : α → β)

/-- Entries with a function applied to what is under each key. -/
def mapValues (entries : Keyed α) : Keyed β := entries.map fun (key, entry) => (key, f entry)

theorem mapValues_insert (entries : Keyed α) (key : Scalar) (entry : α) :
    mapValues f (insert entries key entry) = insert (mapValues f entries) key (f entry) := by
  induction entries with
  | nil => rfl
  | cons first rest ih =>
    simp only [mapValues, List.map_cons, insert_cons] at ih ⊢
    split
    · rfl
    · rw [List.map_cons, ih]

theorem mapValues_merge (entries more : Keyed α) :
    mapValues f (merge entries more) = merge (mapValues f entries) (mapValues f more) := by
  induction more generalizing entries with
  | nil => rfl
  | cons next rest ih => rw [merge_cons, ih, mapValues_insert]; rfl

theorem keys_mapValues (entries : Keyed α) : keys (mapValues f entries) = keys entries := List.map_map ..

theorem find?_mapValues (entries : Keyed α) (key : Scalar) :
    find? (mapValues f entries) key = (find? entries key).map f := by
  induction entries with
  | nil => rfl
  | cons first rest ih =>
    show (if first.1.coincides key then some (f first.2) else find? (mapValues f rest) key) = _
    rw [ih, find?_cons]
    split <;> rfl

theorem Distinct.mapValues (distinct : entries.Distinct) : (Keyed.mapValues f entries).Distinct :=
  List.pairwise_map.mpr distinct

end Values

end FormRules.Keyed

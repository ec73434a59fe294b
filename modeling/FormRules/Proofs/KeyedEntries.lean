import FormRules.Value.Key

/-! Looking up what was put under a key, which rests on the sameness of keys being symmetric and
transitive. -/

namespace FormRules

namespace Keyed

variable {α β : Type}

theorem find?_cons (key other : Scalar) (entry : α) (rest : Keyed α) :
    find? ((key, entry) :: rest) other = if key.coincides other then some entry else find? rest other := rfl

/-- What was put under a key is found under all keys that are the same; other keys are untouched. -/
theorem find?_insert (entries : Keyed α) (key other : Scalar) (entry : α) :
    find? (insert entries key entry) other =
      if key.coincides other then some entry else find? entries other := by
  induction entries with
  | nil => rfl
  | cons first rest ih =>
    obtain ⟨held, old⟩ := first
    by_cases here : held.coincides key = true
    · have alike := Scalar.coincides_congr here other
      by_cases found : key.coincides other = true <;> simp [insert, here, find?_cons, alike, found]
    · by_cases found : key.coincides other = true
      · have apart : held.coincides other ≠ true := by
          intro equal
          rw [Scalar.coincides_comm] at found
          exact here (Scalar.coincides_trans equal found)
        simp [insert, here, find?_cons, ih, apart, found]
      · simp [insert, here, find?_cons, ih, found]

theorem has_insert (entries : Keyed α) (key other : Scalar) (entry : α) :
    has (insert entries key entry) other = (key.coincides other || has entries other) := by
  unfold has
  rw [find?_insert]
  split
  next here => rw [here]; rfl
  next apart => rw [Bool.eq_false_iff.mpr apart]; rfl

theorem has_insert_text_self (entries : Keyed α) (name : String) (entry : α) :
    has (insert entries (.text name) entry) (.text name) = true := by
  rw [has, find?_insert_text_self]
  rfl

/-- What was under a key is gone, and so is what was under all keys that are the same. -/
theorem find?_erase (entries : Keyed α) (key other : Scalar) :
    find? (erase entries key) other = if other.coincides key then none else find? entries other := by
  induction entries with
  | nil => simp [erase, find?]
  | cons first rest ih =>
    obtain ⟨held, old⟩ := first
    unfold erase at ih ⊢
    by_cases here : held.coincides key = true
    · rw [List.filter_cons_of_neg (by simp [here]), ih, find?_cons]
      by_cases gone : other.coincides key = true
      · simp only [gone, if_true]
      · have apart : held.coincides other ≠ true := by
          intro equal
          rw [Scalar.coincides_comm] at equal
          exact gone (Scalar.coincides_trans equal here)
        simp only [gone, apart, Bool.false_eq_true, if_false]
    · rw [List.filter_cons_of_pos (by simp [here]), find?_cons, find?_cons, ih]
      by_cases found : held.coincides other = true
      · have kept : other.coincides key ≠ true := fun equal => here (Scalar.coincides_trans found equal)
        simp only [found, kept, if_true, Bool.false_eq_true, if_false]
      · simp only [found, Bool.false_eq_true, if_false]

theorem exists_mem_of_find? {entries : Keyed α} {key : Scalar} {entry : α}
    (found : find? entries key = some entry) : ∃ held, (held, entry) ∈ entries ∧ held.coincides key = true := by
  induction entries with
  | nil => cases found
  | cons first rest ih =>
    obtain ⟨other, old⟩ := first
    rw [find?_cons] at found
    split at found
    next here =>
      cases found
      exact ⟨other, List.mem_cons_self, here⟩
    next =>
      obtain ⟨held, member, same⟩ := ih found
      exact ⟨held, List.mem_cons_of_mem _ member, same⟩

theorem find?_eq_none {entries : Keyed α} {key : Scalar} :
    find? entries key = none ↔ ∀ entry ∈ entries, entry.1.coincides key = false := by
  induction entries with
  | nil => simp [find?]
  | cons first rest ih =>
    by_cases here : first.1.coincides key = true <;> simp [find?, here, ih]

theorem mem_insert {entries : Keyed α} {key : Scalar} {entry : α} {member : Scalar × α}
    (inside : member ∈ insert entries key entry) : member ∈ entries ∨ member.2 = entry := by
  induction entries with
  | nil =>
    rw [insert, List.mem_singleton] at inside
    exact .inr (by rw [inside])
  | cons first rest ih =>
    obtain ⟨other, old⟩ := first
    by_cases here : other.coincides key = true
    · simp only [insert, here, if_true, List.mem_cons] at inside
      rcases inside with rfl | later
      · exact .inr rfl
      · exact .inl (List.mem_cons_of_mem _ later)
    · simp only [insert, here, List.mem_cons, Bool.false_eq_true, if_false] at inside
      rcases inside with rfl | later
      · exact .inl List.mem_cons_self
      · exact (ih later).imp_left (List.mem_cons_of_mem _)

theorem mem_insert_of_apart {entries : Keyed α} {key : Scalar} {entry : α} {member : Scalar × α}
    (inside : member ∈ entries) (apart : member.1.coincides key = false) : member ∈ insert entries key entry := by
  induction entries with
  | nil => cases inside
  | cons first rest ih =>
    rw [insert]
    obtain rfl | later := List.mem_cons.mp inside
    · rw [if_neg (Bool.eq_false_iff.mp apart)]
      exact List.mem_cons_self
    · split
      · exact List.mem_cons_of_mem _ later
      · exact List.mem_cons_of_mem _ (ih later)

theorem key_of_mem_insert {entries : Keyed α} {key : Scalar} {entry : α} {member : Scalar × α}
    (inside : member ∈ insert entries key entry) : (∃ held ∈ entries, held.1 = member.1) ∨ member.1 = key := by
  induction entries with
  | nil =>
    rw [insert, List.mem_singleton] at inside
    exact .inr (by rw [inside])
  | cons first rest ih =>
    rw [insert] at inside
    split at inside
    · obtain same | later := List.mem_cons.mp inside
      · exact .inl ⟨first, List.mem_cons_self, by rw [same]⟩
      · exact .inl ⟨member, List.mem_cons_of_mem _ later, rfl⟩
    · obtain same | later := List.mem_cons.mp inside
      · exact .inl ⟨first, List.mem_cons_self, by rw [same]⟩
      · obtain ⟨held, among, same⟩ | same := ih later
        · exact .inl ⟨held, List.mem_cons_of_mem _ among, same⟩
        · exact .inr same

/-- No key is there twice. -/
def Distinct (entries : Keyed α) : Prop :=
  entries.Pairwise fun first second => first.1.coincides second.1 = false

theorem Distinct.find?_rest {entry : Scalar × α} {rest : Keyed α} (distinct : Distinct (entry :: rest))
    {key : Scalar} (here : entry.1.coincides key = true) : find? rest key = none := by
  apply find?_eq_none.mpr
  intro other member
  have apart := List.rel_of_pairwise_cons distinct member
  rw [Scalar.coincides_congr here, Scalar.coincides_comm] at apart
  exact apart

theorem Distinct.find?_of_mem {entries : Keyed α} (distinct : Distinct entries) {held key : Scalar} {entry : α}
    (member : (held, entry) ∈ entries) (same : held.coincides key = true) : find? entries key = some entry := by
  induction entries with
  | nil => cases member
  | cons first rest ih =>
    obtain ⟨apart, distinct⟩ := List.pairwise_cons.mp distinct
    rw [find?_cons]
    rcases List.mem_cons.mp member with rfl | later
    · rw [if_pos same]
    · have elsewhere : first.1.coincides key = false := by
        rw [Scalar.coincides_comm, ← Scalar.coincides_congr same, Scalar.coincides_comm]
        exact apart _ later
      rw [if_neg (Bool.eq_false_iff.mp elsewhere), ih distinct later]

theorem keys_insert (entries : Keyed α) (key : Scalar) (entry : α) :
    keys (insert entries key entry) =
      if has entries key then keys entries else keys entries ++ [key] := by
  induction entries with
  | nil => rfl
  | cons first rest ih =>
    obtain ⟨other, old⟩ := first
    by_cases here : other.coincides key = true
    · simp [insert, keys, has, find?_cons, here]
    · simp only [keys, has] at ih
      by_cases later : (find? rest key).isSome = true <;>
        simp [insert, keys, has, find?_cons, here, ih, later]

theorem Distinct.insert {entries : Keyed α} (distinct : Distinct entries) (key : Scalar) (entry : α) :
    Distinct (insert entries key entry) := by
  have byKeys (all : Keyed α) : Distinct all ↔ (keys all).Pairwise (·.coincides · = false) := by
    rw [keys, List.pairwise_map, Distinct]
  rw [byKeys, keys_insert]
  split
  · exact (byKeys entries).mp distinct
  next missing =>
    have absent : find? entries key = none := by simpa [has] using missing
    apply List.pairwise_append.mpr
    refine ⟨(byKeys entries).mp distinct, List.pairwise_singleton _ _, ?_⟩
    intro held member other last
    obtain ⟨stored, inside, rfl⟩ := List.mem_map.mp member
    rw [List.mem_singleton.mp last]
    exact find?_eq_none.mp absent stored inside

theorem keys_erase (entries : Keyed α) (key : Scalar) :
    keys (erase entries key) = (keys entries).filter (!·.coincides key) := by
  rw [keys, keys, List.filter_map]
  rfl

theorem erase_of_absent {entries : Keyed α} {key : Scalar} (absent : find? entries key = none) :
    erase entries key = entries := by
  refine List.filter_eq_self.mpr fun entry member => ?_
  rw [find?_eq_none.mp absent entry member]
  rfl

theorem find?_append (entries more : Keyed α) (key : Scalar) :
    find? (entries ++ more) key = (find? entries key).or (find? more key) := by
  induction entries with
  | nil => rfl
  | cons first rest ih =>
    rw [List.cons_append, find?_cons, find?_cons, ih]
    split <;> rfl

theorem insert_append {entries : Keyed α} {key : Scalar} (absent : find? entries key = none) (more : Keyed α)
    (entry : α) : insert (entries ++ more) key entry = entries ++ insert more key entry := by
  induction entries with
  | nil => rfl
  | cons first rest ih =>
    rw [find?_cons] at absent
    split at absent
    next => cases absent
    next apart => rw [List.cons_append, insert, if_neg apart, ih absent, List.cons_append]

theorem erase_append {entries : Keyed α} {key : Scalar} (absent : find? entries key = none) (more : Keyed α) :
    erase (entries ++ more) key = entries ++ erase more key :=
  (List.filter_append ..).trans (congrArg (· ++ _) (erase_of_absent absent))

/-- What is put under a new key comes last. -/
theorem insert_of_absent {entries : Keyed α} {key : Scalar} (absent : find? entries key = none) (entry : α) :
    insert entries key entry = entries ++ [(key, entry)] := by
  have last := insert_append absent [] entry
  rwa [List.append_nil] at last

/-- What is put under a key where it is already makes no difference. -/
theorem insert_of_found {entries : Keyed α} {key : Scalar} {entry : α} (found : find? entries key = some entry) :
    insert entries key entry = entries := by
  induction entries with
  | nil => cases found
  | cons first rest ih =>
    rw [find?_cons] at found
    split at found
    next here =>
      cases found
      rw [insert, if_pos here]
    next apart => rw [insert, if_neg apart, ih found]

theorem Distinct.absent {entries rest : Keyed α} {next : Scalar × α}
    (distinct : Distinct (entries ++ next :: rest)) : find? entries next.1 = none :=
  find?_eq_none.mpr fun entry member =>
    (List.pairwise_append.mp distinct).2.2 entry member next List.mem_cons_self

/-- What is under a name in the first collection is matched by what is under it in the second one. -/
def Matches (relation : α → β → Prop) (first : Keyed α) (second : Keyed β) : Prop :=
  ∀ name entry, find? first (.text name) = some entry →
    ∃ other, find? second (.text name) = some other ∧ relation entry other

theorem Matches.nil {relation : α → β → Prop} {second : Keyed β} : Matches relation [] second :=
  fun _ _ found => nomatch found

theorem Matches.cons {relation : α → β → Prop} {first : Keyed α} {second : Keyed β} {key : Scalar} {entry : α}
    {other : β} (here : relation entry other) (rest : Matches relation first second) :
    Matches relation ((key, entry) :: first) ((key, other) :: second) := by
  intro name held found
  rw [find?_cons] at found ⊢
  split at found
  next same =>
    cases found
    exact ⟨other, if_pos same, here⟩
  next apart =>
    obtain ⟨more, among, related⟩ := rest name held found
    exact ⟨more, by rw [if_neg apart, among], related⟩

end Keyed

/-- What holds of a field wherever it is given, and of what stands in for it, holds of one of them. -/
theorem Fields.get_orElse {property : Value → Prop} {fields : Fields} {name : String} {other : Value}
    (given : ∀ value, Keyed.find? fields (.text name) = some value → property value) (absent : property other) :
    property ((Fields.get fields name).orElse other) := by
  unfold Value.orElse Fields.get
  cases found : Keyed.find? fields (.text name) with
  | none => exact absent
  | some value =>
    split
    · exact given value found
    · exact absent

end FormRules

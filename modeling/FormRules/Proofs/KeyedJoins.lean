import FormRules.Proofs.KeyedOrder

/-! Entries joined with later ones under the same keys. A key keeps the place of its first entry, so joining is
associative wherever the join of two entries is, order included. -/

namespace FormRules

namespace Keyed

variable {α : Type} (join : α → α → α)

/-- Puts an entry under a key, joined with what is there. -/
def joinAt (entries : Keyed α) (key : Scalar) (entry : α) : Keyed α :=
  insert entries key ((find? entries key).elim entry (join · entry))

def joinAll (entries more : Keyed α) : Keyed α :=
  more.foldl (fun all (key, entry) => joinAt join all key entry) entries

theorem joinAll_cons (entries : Keyed α) (next : Scalar × α) (rest : Keyed α) :
    joinAll join entries (next :: rest) = joinAll join (joinAt join entries next.1 next.2) rest := rfl

theorem merge_eq_joinAll (entries more : Keyed α) : merge entries more = joinAll (fun _ later => later) entries more := by
  have put (all : Keyed α) (key : Scalar) (entry : α) :
      insert all key entry = joinAt (fun _ later => later) all key entry := by
    unfold joinAt
    cases find? all key <;> rfl
  simp only [merge, joinAll, put]

theorem find?_congr (entries : Keyed α) {key other : Scalar} (same : key.coincides other = true) :
    find? entries key = find? entries other := by
  induction entries with
  | nil => rfl
  | cons first rest ih =>
    rw [find?_cons, find?_cons, ih, Scalar.coincides_comm first.1, Scalar.coincides_congr same, Scalar.coincides_comm other]

theorem find?_joinAt (entries : Keyed α) (key other : Scalar) (entry : α) :
    find? (joinAt join entries key entry) other =
      if key.coincides other then some ((find? entries other).elim entry (join · entry)) else find? entries other := by
  rw [joinAt, find?_insert]
  split
  next same => rw [find?_congr entries same]
  next => rfl

theorem has_joinAll (entries more : Keyed α) (key : Scalar) :
    has (joinAll join entries more) key = (has entries key || has more key) := by
  induction more generalizing entries with
  | nil => exact (Bool.or_false _).symm
  | cons next rest ih =>
    have first : has (next :: rest) key = (next.1.coincides key || has rest key) := by
      unfold has
      rw [find?_cons]
      cases next.1.coincides key <;> rfl
    rw [joinAll_cons, ih, joinAt, has_insert, first]
    cases next.1.coincides key <;> simp

/-- Entries under keys that are all new are added as they are. -/
theorem joinAll_of_distinct {entries more : Keyed α} (distinct : Distinct (entries ++ more)) :
    joinAll join entries more = entries ++ more := by
  induction more generalizing entries with
  | nil => exact (List.append_nil _).symm
  | cons next rest ih =>
    have regrouped : entries ++ next :: rest = (entries ++ [next]) ++ rest := by simp
    calc joinAll join entries (next :: rest)
      _ = joinAll join (joinAt join entries next.1 next.2) rest := rfl
      _ = joinAll join (entries ++ [next]) rest := by
        rw [joinAt, distinct.absent, Option.elim_none, insert_of_absent distinct.absent]
      _ = entries ++ next :: rest := by rw [ih (regrouped ▸ distinct), regrouped]

theorem merge_of_distinct {entries more : Keyed α} (distinct : Distinct (entries ++ more)) :
    merge entries more = entries ++ more := by
  rw [merge_eq_joinAll, joinAll_of_distinct _ distinct]

/-- Entries that are there already make no difference. -/
theorem merge_of_found {entries more : Keyed α} (found : ∀ next ∈ more, find? entries next.1 = some next.2) :
    merge entries more = entries := by
  induction more with
  | nil => rfl
  | cons next rest ih =>
    obtain ⟨here, later⟩ := List.forall_mem_cons.mp found
    rw [merge_cons, insert_of_found here, ih later]

theorem find?_joinAll {entries more : Keyed α} (distinct : more.Distinct) (key : Scalar) :
    find? (joinAll join entries more) key = Option.merge join (find? entries key) (find? more key) := by
  induction more generalizing entries with
  | nil => cases found : find? entries key <;> simp [joinAll, find?, found]
  | cons next rest ih =>
    rw [joinAll_cons, ih distinct.of_cons, find?_joinAt, find?_cons]
    by_cases here : next.1.coincides key = true
    · rw [if_pos here, if_pos here, distinct.find?_rest here]
      cases find? entries key <;> rfl
    · rw [if_neg here, if_neg here]

theorem Distinct.joinAll {entries : Keyed α} (distinct : entries.Distinct) (more : Keyed α) :
    (joinAll join entries more).Distinct := by
  induction more generalizing entries with
  | nil => exact distinct
  | cons next rest ih => exact ih (distinct.insert _ _)

theorem forall_mem_joinAll {property : α → Prop}
    (closed : ∀ entry later, property entry → property later → property (join entry later)) {entries more : Keyed α}
    (first : ∀ member ∈ entries, property member.2) (second : ∀ member ∈ more, property member.2) :
    ∀ member ∈ joinAll join entries more, property member.2 := by
  induction more generalizing entries with
  | nil => exact first
  | cons next rest ih =>
    obtain ⟨here, second⟩ := List.forall_mem_cons.mp second
    apply ih ?_ second
    intro member inside
    rcases mem_insert inside with before | added
    · exact first member before
    · rw [added]
      cases found : find? entries next.1 with
      | none => exact here
      | some held =>
        obtain ⟨_, inside, _⟩ := exists_mem_of_find? found
        exact closed _ _ (first _ inside) here

/-- Entries may be put under a key that is there already before or after another one. -/
theorem insert_insert_comm {entries : Keyed α} {key other : Scalar} (present : has entries key = true)
    (apart : key.coincides other = false) (entry more : α) :
    insert (insert entries key entry) other more = insert (insert entries other more) key entry := by
  induction entries with
  | nil => cases present
  | cons first rest ih =>
    by_cases here : first.1.coincides key = true
    · have later : first.1.coincides other ≠ true := by
        rw [Scalar.coincides_congr here, apart]
        exact Bool.false_ne_true
      rw [insert_cons, if_pos here, insert_cons, if_neg later, insert_cons, if_neg later, insert_cons, if_pos here]
    · rw [insert_cons, if_neg here, insert_cons, insert_cons first]
      split
      next => rw [insert_cons, if_neg here]
      next =>
        rw [has, find?_cons, if_neg here] at present
        rw [insert_cons, if_neg here, ih present]

theorem insert_insert_same (entries : Keyed α) {key other : Scalar} (same : key.coincides other = true) (entry later : α) :
    insert (insert entries key entry) other later = insert entries key later := by
  induction entries with
  | nil => simp [insert, same]
  | cons first rest ih =>
    have alike : first.1.coincides other = first.1.coincides key := by
      rw [Scalar.coincides_comm, ← Scalar.coincides_congr same, Scalar.coincides_comm]
    by_cases here : first.1.coincides key = true <;> simp [insert, alike, here, ih]

theorem insert_insert_text (entries : Keyed α) (name : String) (entry later : α) :
    insert (insert entries (.text name) entry) (.text name) later = insert entries (.text name) later :=
  insert_insert_same entries ((Scalar.coincides_text name name).trans (beq_self_eq_true name)) entry later

theorem joinAt_comm {entries : Keyed α} {key other : Scalar} (present : has entries key = true)
    (apart : key.coincides other = false) (entry more : α) :
    joinAt join (joinAt join entries key entry) other more = joinAt join (joinAt join entries other more) key entry := by
  have apart' : other.coincides key ≠ true := by
    rw [Scalar.coincides_comm, apart]
    exact Bool.false_ne_true
  have first : find? (joinAt join entries key entry) other = find? entries other := by
    rw [find?_joinAt, if_neg (by rw [apart]; exact Bool.false_ne_true)]
  have second : find? (joinAt join entries other more) key = find? entries key := by rw [find?_joinAt, if_neg apart']
  rw [joinAt, first, joinAt.eq_1 join (joinAt join entries other more), second]
  exact insert_insert_comm present apart _ _

section Associative

variable {join} (assoc : ∀ entry later last, join (join entry later) last = join entry (join later last))

include assoc

theorem joinAt_joinAt (entries : Keyed α) {key other : Scalar} (same : key.coincides other = true) (entry later : α) :
    joinAt join (joinAt join entries key entry) other later = joinAt join entries key (join entry later) := by
  rw [joinAt, find?_joinAt, if_pos same, ← find?_congr entries same, joinAt, insert_insert_same entries same, joinAt]
  cases find? entries key with
  | none => rfl
  | some held => exact congrArg (insert entries key) (assoc held entry later)

omit assoc in
theorem joinAt_joinAll {entries more : Keyed α} {key : Scalar} (present : has entries key = true)
    (absent : find? more key = none) (entry : α) :
    joinAt join (joinAll join entries more) key entry = joinAll join (joinAt join entries key entry) more := by
  induction more generalizing entries with
  | nil => rfl
  | cons next rest ih =>
    rw [find?_cons] at absent
    split at absent
    next => cases absent
    next apart =>
      have apart : key.coincides next.1 = false := by rw [Scalar.coincides_comm]; exact Bool.eq_false_iff.mpr apart
      have still : has (joinAt join entries next.1 next.2) key = true := by
        rw [joinAt, has_insert, present, Bool.or_true]
      rw [joinAll_cons, joinAll_cons, ih still absent, joinAt_comm join present apart]

/-- One more entry may be joined to what is added before it is added, or afterwards. -/
theorem joinAll_joinAt (entries : Keyed α) {more : Keyed α} (distinct : more.Distinct) (key : Scalar) (entry : α) :
    joinAll join entries (joinAt join more key entry) = joinAt join (joinAll join entries more) key entry := by
  induction more generalizing entries with
  | nil => rfl
  | cons next rest ih =>
    by_cases here : next.1.coincides key = true
    · have put : joinAt join (next :: rest) key entry = (next.1, join next.2 entry) :: rest := by
        rw [joinAt, find?_cons, if_pos here, insert_cons, if_pos here]
        rfl
      have present : has (joinAt join entries next.1 next.2) key = true := by
        rw [joinAt, has_insert, here, Bool.true_or]
      rw [put, joinAll_cons, joinAll_cons, joinAt_joinAll present (distinct.find?_rest here), joinAt_joinAt assoc _ here]
    · have put : joinAt join (next :: rest) key entry = next :: joinAt join rest key entry := by
        rw [joinAt, find?_cons, if_neg here, insert_cons, if_neg here, joinAt]
      rw [put, joinAll_cons, joinAll_cons, ih _ distinct.of_cons]

theorem joinAll_assoc (entries : Keyed α) {more : Keyed α} (distinct : more.Distinct) (last : Keyed α) :
    joinAll join (joinAll join entries more) last = joinAll join entries (joinAll join more last) := by
  induction last generalizing more with
  | nil => rfl
  | cons next rest ih =>
    have grown : (joinAt join more next.1 next.2).Distinct := distinct.insert _ _
    rw [joinAll_cons, joinAll_cons, ← ih grown, joinAll_joinAt assoc entries distinct]

end Associative

end Keyed

end FormRules

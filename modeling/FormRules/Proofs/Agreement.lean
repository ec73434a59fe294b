import FormRules.Context.Basic

/-! Results with faults: what a chain of them comes from, and when two of them agree but for the cause of a
fault. Contexts that differ only in their data. -/

namespace FormRules

variable {α β : Type}

/-- A result without a fault comes from parts without one. -/
theorem Fault.of_bind_ok {first : Except Fault α} {next : α → Except Fault β} {result : β}
    (ended : (first >>= next) = .ok result) : ∃ value, first = .ok value ∧ next value = .ok result := by
  cases first with
  | error fault => cases ended
  | ok value => exact ⟨value, rfl, ended⟩

theorem ok_of_toOption {result : Except Fault α} {value : α} (ended : result.toOption = some value) :
    result = .ok value := by
  cases result with
  | error fault => cases ended
  | ok _ => exact congrArg Except.ok (Option.some.inj ended)

theorem Fault.of_map_ok {first : Except Fault α} {f : α → β} {result : β} (ended : first.map f = .ok result) :
    ∃ value, first = .ok value ∧ f value = result := by
  cases first with
  | error fault => cases ended
  | ok value => exact ⟨value, rfl, Except.ok.inj ended⟩

theorem Fault.map_ok_iff {first : Except Fault α} {f : α → β} {result : β} :
    first.map f = .ok result ↔ ∃ value, first = .ok value ∧ f value = result := by
  refine ⟨of_map_ok, ?_⟩
  rintro ⟨value, rfl, rfl⟩
  rfl

theorem Fault.of_mapM_ok {f : α → Except Fault β} {items : List α} {results : List β}
    (ended : items.mapM f = .ok results) {item : α} (member : item ∈ items) :
    ∃ result ∈ results, f item = .ok result := by
  induction items generalizing results with
  | nil => cases member
  | cons first rest ih =>
    rw [List.mapM_cons] at ended
    obtain ⟨result, here, ended⟩ := of_bind_ok ended
    obtain ⟨others, later, ended⟩ := of_bind_ok ended
    cases ended
    cases member with
    | head => exact ⟨result, List.mem_cons_self, here⟩
    | tail _ member =>
      obtain ⟨other, listed, found⟩ := ih later member
      exact ⟨other, List.mem_cons_of_mem _ listed, found⟩

theorem Fault.exists_of_mapM_ok {f : α → Except Fault β} {items : List α} {results : List β}
    (ended : items.mapM f = .ok results) {result : β} (member : result ∈ results) :
    ∃ item ∈ items, f item = .ok result := by
  induction items generalizing results with
  | nil =>
    cases ended
    cases member
  | cons first rest ih =>
    rw [List.mapM_cons] at ended
    obtain ⟨here, found, ended⟩ := of_bind_ok ended
    obtain ⟨others, later, ended⟩ := of_bind_ok ended
    cases ended
    cases member with
    | head => exact ⟨first, List.mem_cons_self, found⟩
    | tail _ member =>
      obtain ⟨item, listed, found⟩ := ih later member
      exact ⟨item, List.mem_cons_of_mem _ listed, found⟩

/-- What results are called is read off what they come from. -/
theorem Fault.map_of_mapM_ok {γ : Type} {f : α → Except Fault β} {items : List α} {results : List β}
    {named : β → γ} {called : α → γ} (same : ∀ item result, f item = .ok result → named result = called item)
    (ended : items.mapM f = .ok results) : results.map named = items.map called := by
  induction items generalizing results with
  | nil =>
    cases ended
    rfl
  | cons first rest ih =>
    rw [List.mapM_cons] at ended
    obtain ⟨here, found, ended⟩ := of_bind_ok ended
    obtain ⟨others, later, ended⟩ := of_bind_ok ended
    cases ended
    rw [List.map_cons, List.map_cons, same first here found, ih later]

/-- Results in another order are results in another order, if none of them is a fault. -/
theorem Fault.mapM_perm {f : α → Except Fault β} {items others : List α} (perm : items.Perm others) :
    (∃ fault fault', items.mapM f = .error fault ∧ others.mapM f = .error fault') ∨
      ∃ results results', items.mapM f = .ok results ∧ others.mapM f = .ok results' ∧ results.Perm results' := by
  induction perm with
  | nil => exact .inr ⟨[], [], rfl, rfl, .nil⟩
  | cons item _ ih =>
    rw [List.mapM_cons, List.mapM_cons]
    cases f item with
    | error fault => exact .inl ⟨fault, fault, rfl, rfl⟩
    | ok result =>
      obtain ⟨fault, fault', left, right⟩ | ⟨results, results', left, right, perm⟩ := ih
      · exact .inl ⟨fault, fault', by rw [left]; rfl, by rw [right]; rfl⟩
      · exact .inr ⟨_, _, by rw [left]; rfl, by rw [right]; rfl, perm.cons result⟩
  | swap first second rest =>
    simp only [List.mapM_cons]
    cases f first with
    | error fault =>
      cases f second with
      | error fault' => exact .inl ⟨fault', fault, rfl, rfl⟩
      | ok result => exact .inl ⟨fault, fault, rfl, rfl⟩
    | ok one =>
      cases f second with
      | error fault => exact .inl ⟨fault, fault, rfl, rfl⟩
      | ok two =>
        cases rest.mapM f with
        | error fault => exact .inl ⟨fault, fault, rfl, rfl⟩
        | ok results => exact .inr ⟨_, _, rfl, rfl, .swap ..⟩
  | trans _ _ ih ih' =>
    obtain ⟨fault, fault', left, right⟩ | ⟨results, results', left, right, perm⟩ := ih
    · obtain ⟨fault₂, fault₃, left', right'⟩ | ⟨_, _, left', _, _⟩ := ih'
      · exact .inl ⟨fault, fault₃, left, right'⟩
      · rw [right] at left'
        cases left'
    · obtain ⟨_, _, left', _⟩ | ⟨results₂, results₃, left', right', perm'⟩ := ih'
      · rw [right] at left'
        cases left'
      · rw [right] at left'
        cases left'
        exact .inr ⟨results, results₃, left, right', perm.trans perm'⟩

/-- A result without a fault, and a good one. -/
def Yields (result : Except Fault α) (good : α → Prop) : Prop := ∃ value, result = .ok value ∧ good value

namespace Yields

variable {p : α → Prop} {q : β → Prop}

theorem ok {value : α} (holds : p value) : Yields (.ok value) p := ⟨value, rfl, holds⟩

theorem not_error (fault : Fault) : ¬Yields (.error fault) p := fun ⟨_, ended, _⟩ => nomatch ended

theorem bind {result : Except Fault α} {next : α → Except Fault β} (first : Yields result p)
    (rest : ∀ value, p value → Yields (next value) q) : Yields (result >>= next) q := by
  obtain ⟨value, rfl, holds⟩ := first
  exact rest value holds

theorem map {result : Except Fault α} (first : Yields result p) {f : α → β}
    (implies : ∀ value, p value → q (f value)) : Yields (result.map f) q := by
  obtain ⟨value, rfl, holds⟩ := first
  exact ⟨f value, rfl, implies value holds⟩

theorem weaken {r : α → Prop} {result : Except Fault α} (yields : Yields result p)
    (implies : ∀ value, p value → r value) : Yields result r := by
  obtain ⟨value, ended, holds⟩ := yields
  exact ⟨value, ended, implies value holds⟩

theorem mapM {f : α → Except Fault β} {items : List α} (each : ∀ item ∈ items, Yields (f item) q) :
    Yields (items.mapM f) fun results => results.length = items.length ∧ ∀ result ∈ results, q result := by
  induction items with
  | nil => exact .ok ⟨rfl, nofun⟩
  | cons item items ih =>
    rw [List.mapM_cons]
    refine (each item List.mem_cons_self).bind fun result holds => ?_
    refine (ih fun other member => each other (List.mem_cons_of_mem _ member)).bind fun results all => .ok ⟨?_, ?_⟩
    · rw [List.length_cons, all.1, List.length_cons]
    · exact fun other member => (List.mem_cons.mp member).elim (· ▸ holds) (all.2 other)

private theorem filterAuxM {test : α → Except Fault Bool} {items kept : List α}
    (each : ∀ item ∈ items, Yields (test item) fun _ => True) (before : ∀ item ∈ kept, p item)
    (all : ∀ item ∈ items, p item) :
    Yields (items.filterAuxM test kept) fun results => ∀ item ∈ results, p item := by
  induction items generalizing kept with
  | nil => exact .ok before
  | cons item items ih =>
    refine (each item List.mem_cons_self).bind fun answer _ => ih ?_ ?_ ?_
    · exact fun other member => each other (List.mem_cons_of_mem _ member)
    · cases answer with
      | true => exact fun other member => (List.mem_cons.mp member).elim (· ▸ all item List.mem_cons_self) (before other)
      | false => exact before
    · exact fun other member => all other (List.mem_cons_of_mem _ member)

theorem filterM {test : α → Except Fault Bool} {items : List α}
    (each : ∀ item ∈ items, Yields (test item) fun _ => True) (all : ∀ item ∈ items, p item) :
    Yields (items.filterM test) fun results => ∀ item ∈ results, p item :=
  (filterAuxM each nofun all).bind fun _ kept => .ok fun item member => kept item (List.mem_reverse.mp member)

end Yields

/-- What a result is like if it is there. -/
def Ensures {ε : Type} (result : Except ε α) (good : α → Prop) : Prop := ∀ value, result = .ok value → good value

namespace Ensures

variable {ε : Type} {result : Except ε α} {p : α → Prop} {q : β → Prop}

theorem ok {value : α} (holds : p value) : Ensures (.ok value : Except ε α) p := by
  intro other ended
  cases ended
  exact holds

theorem error (cause : ε) : Ensures (.error cause) p := fun _ ended => nomatch ended

theorem any : Ensures result fun _ => True := fun _ _ => trivial

theorem bind {next : α → Except ε β} (first : Ensures result p) (rest : ∀ value, p value → Ensures (next value) q) :
    Ensures (result >>= next) q := by
  intro last ended
  cases result with
  | error cause => cases ended
  | ok value => exact rest value (first value rfl) last ended

theorem map (first : Ensures result p) {f : α → β} (implies : ∀ value, p value → q (f value)) :
    Ensures (result.map f) q := by
  intro last ended
  cases result with
  | error cause => cases ended
  | ok value =>
    cases ended
    exact implies value (first value rfl)

theorem weaken {r : α → Prop} (ensures : Ensures result p) (implies : ∀ value, p value → r value) : Ensures result r :=
  fun value ended => implies value (ensures value ended)

end Ensures

/-- Two results are alike if they are the same value, or faults. -/
def Alike (first second : Except Fault α) : Prop := first.toOption = second.toOption

namespace Alike

theorem refl (result : Except Fault α) : Alike result result := rfl

theorem of_eq {first second : Except Fault α} (same : first = second) : Alike first second := by
  rw [same]
  exact refl second

theorem same_or_faults {first second : Except Fault α} (alike : Alike first second) :
    (∃ value, first = .ok value ∧ second = .ok value) ∨
      ∃ fault other, first = .error fault ∧ second = .error other := by
  cases first with
  | error fault =>
    cases second with
    | error other => exact .inr ⟨fault, other, rfl, rfl⟩
    | ok value => cases alike
  | ok value =>
    cases second with
    | error fault => cases alike
    | ok value =>
      cases alike
      exact .inl ⟨value, rfl, rfl⟩

theorem bind {first second : Except Fault α} {next other : α → Except Fault β} (alike : Alike first second)
    (rest : ∀ value, Alike (next value) (other value)) : Alike (first >>= next) (second >>= other) := by
  obtain ⟨value, rfl, rfl⟩ | ⟨fault, other, rfl, rfl⟩ := alike.same_or_faults
  · exact rest value
  · rfl

theorem map {first second : Except Fault α} (alike : Alike first second) (f : α → β) :
    Alike (first.map f) (second.map f) := by
  obtain ⟨value, rfl, rfl⟩ | ⟨fault, other, rfl, rfl⟩ := alike.same_or_faults
  · rfl
  · rfl

end Alike

theorem Value.isText_iff {value : Value} : value.isText = true ↔ ∃ name, value = .text name := by
  constructor
  · intro text
    unfold isText at text
    split at text
    next name => exact ⟨name, rfl⟩
    next => cases text
  · rintro ⟨name, rfl⟩
    rfl

/-- The first moment there is. -/
def Moment.earliest : Moment := ⟨⟨1, 1, 1, by decide, by decide, by decide⟩, ⟨0, 0, 0, 0⟩, none⟩

namespace Context

/-- The context of data of which nothing else is known. -/
def ofData (data : Value) : Context where
  data := data
  form := .object []
  settings := {}
  path := []
  external := .null
  timestamp := .earliest
  params := .null
  caching := false

/-- The same context with other data. -/
def withData (context : Context) (data : Value) : Context := { context with data }

theorem withParams_withData (context : Context) (data params : Value) :
    (context.withData data).withParams params = (context.withParams params).withData data := rfl

/-- What is no text is the name of no field, whatever the data. -/
theorem value_eq_of_not_text (first second : Context) {field : Value} (nameless : field.isText = false) :
    first.value field = second.value field := by
  cases field with
  | scalar key =>
    cases key with
    | text name => cases nameless
    | null | bool | number | date | moment => rfl
  | list items => rfl
  | object fields => rfl
  | handle name => rfl

end Context

end FormRules

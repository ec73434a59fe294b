import FormRules.Proofs.PathLookup
import FormRules.Proofs.PathSteps

/-! Writing at a path, and what is found at the paths afterwards. A path that diverges leads where it led before, unless
the two of them go through a list together: readers step into lists, but a writer puts an object in their place. -/

namespace FormRules

namespace Path

/-- Neither path is the beginning of the other one. -/
def Diverge (first second : List String) : Prop := ¬first <+: second ∧ ¬second <+: first

/-- The segments that two paths begin with together. -/
def shared : List String → List String → List String
  | segment :: more, other :: others => if segment = other then segment :: shared more others else []
  | _, _ => []

/-- Whether a list is met on the way along segments, at its end included. -/
inductive MeetsList : Value → List String → Prop
  | here {items segments} : MeetsList (.list items) segments
  | later {value segment inner more} : Steps value segment inner → MeetsList inner more → MeetsList value (segment :: more)

/-- The fields of the object that a writer goes on with below a segment. -/
def entered (fields : Fields) (segment : String) : Fields :=
  match Fields.get fields segment with
  | .object inner => inner
  | _ => []

theorem writeFields_cons (fields : Fields) (segment next : String) (more : List String) (value : Value) :
    writeFields fields segment (next :: more) value =
      Keyed.insert fields (.text segment) (.object (writeFields (entered fields segment) next more value)) := rfl

theorem meetsList_object {fields : Fields} {segment : String} {more : List String} :
    MeetsList (.object fields) (segment :: more) ↔
      ∃ inner, Keyed.find? fields (.text segment) = some inner ∧ MeetsList inner more := by
  constructor
  · rintro (_ | ⟨⟨found⟩, meets⟩)
    exact ⟨_, found, meets⟩
  · rintro ⟨inner, found, meets⟩
    exact .later (.member found) meets

theorem not_meetsList_empty (segments : List String) : ¬MeetsList (.object []) segments := by
  cases segments with
  | nil => exact nofun
  | cons segment more =>
    rw [meetsList_object]
    exact nofun

theorem walk?_nowhere (segment : String) (more : List String) : walk? (.object []) (segment :: more) = .ok none :=
  walk?_object_cons [] segment more

/-- Where no list stands, what a writer goes on with is read like what stands there. -/
theorem walk?_entered {fields : Fields} {segment : String}
    (unlisted : ∀ items, Keyed.find? fields (.text segment) ≠ some (.list items)) (next : String) (more : List String) :
    walk? (.object (entered fields segment)) (next :: more) = walk? (.object fields) (segment :: next :: more) := by
  rw [walk?_object_cons fields, entered, Fields.get]
  cases found : Keyed.find? fields (.text segment) with
  | none => exact walk?_nowhere next more
  | some value =>
    cases value with
    | object inner => rfl
    | list items => exact absurd found (unlisted items)
    | scalar | handle => exact walk?_nowhere next more

theorem meetsList_entered {fields : Fields} {segment : String}
    (unlisted : ∀ items, Keyed.find? fields (.text segment) ≠ some (.list items)) (segments : List String) :
    MeetsList (.object (entered fields segment)) segments ↔ MeetsList (.object fields) (segment :: segments) := by
  rw [meetsList_object, entered, Fields.get]
  cases found : Keyed.find? fields (.text segment) with
  | none => simp [not_meetsList_empty]
  | some value =>
    cases value with
    | object inner => simp
    | list items => exact absurd found (unlisted items)
    | scalar | handle =>
      refine iff_of_false (not_meetsList_empty segments) ?_
      rintro ⟨_, ⟨⟩, _ | ⟨⟨⟩, _⟩⟩

theorem walk?_write_self (fields : Fields) (segment : String) (more : List String) (value : Value) :
    walk? (.object (writeFields fields segment more value)) (segment :: more) = .ok (some value) := by
  induction more generalizing fields segment with
  | nil =>
    rw [writeFields, walk?_object_cons, Keyed.find?_insert_text_self]
    rfl
  | cons next more ih =>
    rw [writeFields_cons, walk?_object_cons, Keyed.find?_insert_text_self]
    exact ih (entered fields segment) next

theorem walk?_write_apart {segment other : String} (apart : segment ≠ other) (fields : Fields) (more others : List String)
    (value : Value) :
    walk? (.object (writeFields fields segment more value)) (other :: others) = walk? (.object fields) (other :: others) := by
  cases more <;> rw [writeFields, walk?_object_cons, walk?_object_cons, Keyed.find?_insert_text_other _ apart]

theorem Diverge.tail {segment : String} {more others : List String} (diverge : Diverge (segment :: more) (segment :: others)) :
    Diverge more others :=
  ⟨fun begins => diverge.1 (List.cons_prefix_cons.mpr ⟨rfl, begins⟩),
    fun begins => diverge.2 (List.cons_prefix_cons.mpr ⟨rfl, begins⟩)⟩

/-- By induction on the segments that are written: both paths go down together until they part, and the reader goes on
in what the writer has entered. -/
theorem walk?_write_diverging (fields : Fields) (segment : String) (more : List String) (value : Value) {others : List String}
    (diverge : Diverge (segment :: more) others) :
    (MeetsList (.object fields) (shared (segment :: more) others) ∧
      walk? (.object (writeFields fields segment more value)) others = .ok none) ∨
    (¬MeetsList (.object fields) (shared (segment :: more) others) ∧
      walk? (.object (writeFields fields segment more value)) others = walk? (.object fields) others) := by
  induction more generalizing fields segment others with
  | nil =>
    cases others with
    | nil => exact absurd List.nil_prefix diverge.2
    | cons other others =>
      have apart : segment ≠ other := by
        rintro rfl
        exact diverge.1 (List.cons_prefix_cons.mpr ⟨rfl, List.nil_prefix⟩)
      rw [shared, if_neg apart]
      exact .inr ⟨nofun, walk?_write_apart apart fields [] others value⟩
  | cons next more ih =>
    cases others with
    | nil => exact absurd List.nil_prefix diverge.2
    | cons other others =>
      by_cases same : segment = other
      · subst same
        obtain ⟨last, rest, rfl⟩ : ∃ last rest, others = last :: rest := by
          apply List.exists_cons_of_ne_nil
          rintro rfl
          exact diverge.tail.2 List.nil_prefix
        rw [shared, if_pos rfl, writeFields_cons, walk?_object_cons _ segment, Keyed.find?_insert_text_self]
        dsimp only
        by_cases listed : ∃ items, Keyed.find? fields (.text segment) = some (.list items)
        · obtain ⟨items, found⟩ := listed
          have nothing : entered fields segment = [] := by
            rw [entered, Fields.get, found]
            rfl
          refine .inl ⟨.later (.member found) .here, ?_⟩
          rw [nothing]
          rcases ih [] next diverge.tail with ⟨meets, _⟩ | ⟨_, kept⟩
          · exact absurd meets (not_meetsList_empty _)
          · rw [kept, walk?_nowhere]
        · have unlisted : ∀ items, Keyed.find? fields (.text segment) ≠ some (.list items) :=
            fun items found => listed ⟨items, found⟩
          rw [← meetsList_entered unlisted, ← walk?_entered unlisted]
          exact ih (entered fields segment) next diverge.tail
      · rw [shared, if_neg same]
        exact .inr ⟨nofun, walk?_write_apart same fields (next :: more) others value⟩

theorem write_object (fields : Fields) {path : String} (named : "" ∉ segments path) (value : Value) :
    ∃ segment more, segments path = segment :: more ∧
      write (.object fields) path value = .ok (.object (writeFields fields segment more value)) := by
  obtain ⟨segment, more, whole⟩ := List.exists_cons_of_ne_nil (segments_ne_nil path)
  have kept : (segments path).filter (· != "") = segments path := by
    apply List.filter_eq_self.mpr
    intro part member
    simp only [bne_iff_ne, ne_eq]
    rintro rfl
    exact named member
  refine ⟨segment, more, whole, ?_⟩
  rw [write, kept, whole]

end Path

namespace Family

variable {family : Family} {member : Member}

/-- The document that a context is bound to can be replaced for all contexts that share it, and for no others. -/
theorem data_set {fields : Fields} (held : family.data member = .object fields) (root : Value) (reader : Member) :
    ({ family with roots := family.roots.set member.root root }).data reader =
      if reader.root = member.root then root else family.data reader := by
  have inside : member.root < family.roots.length := by
    apply Nat.lt_of_not_le
    intro outside
    rw [data, List.getElem?_eq_none outside] at held
    cases held
  unfold data
  rw [List.getElem?_set]
  by_cases same : reader.root = member.root
  · simp [same, inside]
  · simp [same, Ne.symm same]

/-- Writing at a path of named segments ends, and what was written is read there by every context that shares the
document. A path that diverges is read as before, but for one that comes through a list on its way along the path that is
written: it leads nowhere any more. -/
theorem set_reads {fields : Fields} (held : family.data member = .object fields) {path : String}
    (named : "" ∉ Path.segments path) (value : Value) :
    ∃ written, family.set member (.text path) value = .ok written ∧
      (∀ reader : Member, reader.root ≠ member.root → written.data reader = family.data reader) ∧
      ∀ reader : Member, reader.root = member.root →
        written.has reader (.text path) = .ok true ∧
        (∀ absent, written.get reader (.text path) absent = .ok value) ∧
        ∀ other, Path.Diverge (Path.segments path) (Path.segments other) →
          (Path.MeetsList (.object fields) (Path.shared (Path.segments path) (Path.segments other)) ∧
            written.has reader (.text other) = .ok false ∧
            ∀ absent, written.get reader (.text other) absent = .ok absent) ∨
          (¬Path.MeetsList (.object fields) (Path.shared (Path.segments path) (Path.segments other)) ∧
            written.has reader (.text other) = family.has reader (.text other) ∧
            ∀ absent, written.get reader (.text other) absent = family.get reader (.text other) absent) := by
  obtain ⟨segment, more, whole, ended⟩ := Path.write_object fields named value
  let root : Value := .object (Path.writeFields fields segment more value)
  refine ⟨{ family with roots := family.roots.set member.root root }, ?_, ?_, ?_⟩
  · show (do
      let root ← Path.write (family.data member) path value
      return { family with roots := family.roots.set member.root root }) = _
    rw [held, ended]
    rfl
  · intro reader apart
    rw [data_set held, if_neg apart]
  · intro reader same
    have before : family.data reader = .object fields := by
      unfold data at held ⊢
      rw [same, held]
    simp only [has_eq, get_eq, data_set held, if_pos same, before, Path.find?, whole]
    refine ⟨?_, ?_, ?_⟩
    · rw [Path.walk?_write_self]
      rfl
    · intro absent
      rw [Path.walk?_write_self]
      rfl
    · intro other diverge
      rcases Path.walk?_write_diverging fields segment more value diverge with ⟨meets, none⟩ | ⟨unlisted, kept⟩
      · refine .inl ⟨meets, ?_⟩
        rw [none]
        exact ⟨rfl, fun _ => rfl⟩
      · refine .inr ⟨unlisted, ?_⟩
        rw [kept]
        exact ⟨rfl, fun _ => rfl⟩

/-- An order with a list, and a note where an address is to be written. -/
def order : Fields := [
  (.text "items", .list [.int 1, .int 2]),
  (.text "to", .object [(.text "name", .text "Ada"), (.text "address", .text "unknown")])]

/-- The writer replaces a note by an object, and leaves the name beside it and the list alone. -/
theorem set_reads_order : ∃ written, (single (.object order)).set first (.text "to.address.city") (.text "Ulm") = .ok written ∧
    written.get first (.text "to.address.city") .null = .ok (.text "Ulm") ∧
    written.get first (.text "to.name") .null = .ok (.text "Ada") ∧ written.has first (.text "items.1") = .ok true := by
  have path : Path.segments "to.address.city" = ["to", "address", "city"] := by decide +kernel
  have name : Path.segments "to.name" = ["to", "name"] := by decide +kernel
  have item : Path.segments "items.1" = ["items", "1"] := by decide +kernel
  have named : "" ∉ Path.segments "to.address.city" := by
    rw [path]
    decide
  obtain ⟨written, ended, _, reads⟩ := @set_reads (single (.object order)) first order rfl "to.address.city" named (.text "Ulm")
  obtain ⟨_, self, others⟩ := reads first rfl
  refine ⟨written, ended, self .null, ?_, ?_⟩
  · rcases others "to.name" (by rw [path, name]; unfold Path.Diverge; decide) with ⟨meets, _⟩ | ⟨_, _, kept⟩
    · rw [path, name] at meets
      obtain ⟨_, ⟨⟩, meets⟩ := Path.meetsList_object.mp meets
      cases meets
    · exact kept .null
  · rcases others "items.1" (by rw [path, item]; unfold Path.Diverge; decide) with ⟨meets, _⟩ | ⟨_, kept, _⟩
    · rw [path, item] at meets
      cases meets
    · exact kept

/-- Writing the first item of an order makes its second one disappear. -/
theorem write_into_list :
    Path.Diverge (Path.segments "items.0") (Path.segments "items.1") ∧
    (single (.object order)).has first (.text "items.1") = .ok true ∧
    ((single (.object order)).set first (.text "items.0") (.int 5)).bind (·.has first (.text "items.1")) = .ok false := by
  refine ⟨?_, rfl, rfl⟩
  unfold Path.Diverge
  decide +kernel

end Family

end FormRules

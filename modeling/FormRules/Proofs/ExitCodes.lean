import FormRules.CommandLine.Run
import FormRules.Proofs.WritablePasses

/-! The codes with which checking data against a form ends, whatever stands in the documents: 2 just if one of them
cannot be used, else 0 or 1 as the data pass or not. A document in YAML may still break a run off, where reading it ends
in a fault that nobody answers for, or where a day or a moment stands as a name in it. -/

namespace FormRules

/-! Settings. -/

theorem Settings.isPlainScalar_usualName {key : Scalar} (plain : Json.isPlainScalar key = true) :
    Json.isPlainScalar (usualName key) = true := by
  unfold usualName
  split <;> first | rfl | exact plain

theorem Settings.usualFields_writable {value : Value} (writable : value.isWritable = true) :
    Ensures (usualFields value) (·.Writable (·.isWritable = true)) := by
  unfold usualFields
  split
  next fields =>
    have each := Value.haveWritable_iff.mp writable
    refine .ok (Keyed.Writable.merge .nil (List.forall_mem_map.mpr fun entry member => ?_))
    exact ⟨isPlainScalar_usualName (each entry member).1, (each entry member).2⟩
  next => exact .error _

theorem Settings.tenant_isWritable {value : Value} (writable : value.isWritable = true) :
    Ensures (Settings.ofValue value) (·.tenant.isWritable = true) := by
  unfold Settings.ofValue
  refine (usualFields_writable writable).bind fun fields each => ?_
  refine Ensures.any.bind fun cache _ => Ensures.any.bind fun validators _ => Ensures.any.bind fun timeout _ => ?_
  simp only
  split
  · exact .error _
  · exact .ok (Fields.get_isWritable each "tenant_context")

namespace Files

variable (files : Files)

/-- A text that stands under a path, if anything does. In JSON it writes no half of a surrogate pair by itself. In YAML,
reading it ends in no fault that lies elsewhere than in the document, and what is read has neither days nor moments as
names. -/
structure Readable (path : String) : Prop where
  text : files.lookup (normal path) ≠ some .directory
  whole : [".yaml", ".yml"].contains (ending path) = false → ∀ content,
    files.lookup (normal path) = some (.text content) → Json.hasHalf false (withLineFeeds content.toList) = false
  answered : [".yaml", ".yml"].contains (ending path) = true → ∀ fault, files.read path = .error fault →
    fault.isInDocuments = true
  named : [".yaml", ".yml"].contains (ending path) = true → ∀ value, files.read path = .ok value →
    value.isWritable = true

/-- A form that is not there, cannot be read or is out of order. -/
def RefusesForm (path : String) : Prop :=
  files.has path = false ∨ (∃ fault, files.read path = .error fault) ∨
    ∃ form, files.read path = .ok form ∧ Form.complaints form ≠ []

/-- Data that are not there, cannot be read or are neither an object nor nothing. -/
def RefusesData (path : String) : Prop :=
  files.has path = false ∨ (∃ fault, files.read path = .error fault) ∨
    ∃ data, files.read path = .ok data ∧ data ≠ .null ∧ ∀ fields, data ≠ .object fields

/-- Settings that are there, but cannot be read, count as present without being an object, or are not accepted. -/
def RefusesSettings (path : String) : Prop :=
  files.has path = true ∧ ((∃ fault, files.read path = .error fault) ∨
    ∃ given, files.read path = .ok given ∧
      ((given.truthy = true ∧ ∀ fields, given ≠ .object fields) ∨
        ∃ fields fault, given = .object fields ∧ Settings.ofValue given = .error fault))

/-- Settings that can be read as far as a text goes, and whose fields are refused, if they are, by a fault that lies in
the document. -/
structure Configurable (path : String) : Prop extends files.Readable path where
  accepted : ∀ fields fault, files.read path = .ok (.object fields) →
    Settings.ofValue (.object fields) = .error fault → fault.isInDocuments = true

/-- One of the documents that a check begins with is refused. -/
def Refuses (form data : String) (settings? : Option String) : Prop :=
  files.RefusesForm form ∨ files.RefusesData data ∨ ∃ path ∈ settings?, files.RefusesSettings path

/-- What comes of loading a document: it is refused, by a fault that is answered, or else all is well with it. -/
inductive Loaded {α : Type} (refused : Prop) (good : α → Prop) : Except Fault α → Prop
  | refused {fault : Fault} (why : refused) (answered : fault.isInDocuments = true) : Loaded refused good (.error fault)
  | used {value : α} (fine : ¬ refused) (holds : good value) : Loaded refused good (.ok value)

namespace Loaded

variable {α β : Type} {refused : Prop} {good : α → Prop} {first : Except Fault α}

theorem bind {other : Prop} {later : β → Prop} {next : α → Except Fault β} (known : Loaded refused good first)
    (rest : ∀ value, first = .ok value → good value → Loaded other later (next value)) :
    Loaded (refused ∨ other) later (first >>= next) := by
  cases known with
  | refused why answered => exact .refused (.inl why) answered
  | used fine holds =>
    change Loaded _ _ (next _)
    generalize ended : next _ = result
    cases ended ▸ rest _ rfl holds with
    | refused why answered => exact .refused (.inr why) answered
    | used well holds => exact .used (not_or.mpr ⟨fine, well⟩) holds

theorem map {later : β → Prop} {f : α → β} (known : Loaded refused good first)
    (implies : ∀ value, first = .ok value → good value → later (f value)) :
    Loaded refused later (first >>= fun value => pure (f value)) := by
  cases known with
  | refused why answered => exact .refused why answered
  | used fine holds => exact .used fine (implies _ rfl holds)

end Loaded

section Loading

variable {files} {path : String}

theorem has_of_read {value : Value} (found : files.read path = .ok value) : files.has path = true := by
  unfold read at found
  unfold has
  cases stored : files.lookup (normal path) with
  | none =>
    rw [stored] at found
    cases found
  | some stored => rfl

variable (readable : files.Readable path)

include readable

theorem Readable.read_cases : [".yaml", ".yml"].contains (ending path) = true ∨
    files.read path = .error (.missing (.other (normal path))) ∨
    ∃ text, files.read path = (Json.ofText text).mapError .json := by
  cases yaml : [".yaml", ".yml"].contains (ending path) with
  | true => exact .inl rfl
  | false =>
    refine .inr ?_
    unfold read valueOf
    cases stored : files.lookup (normal path) with
    | none => exact .inl rfl
    | some stored' =>
      cases stored' with
      | directory => exact absurd stored readable.text
      | text content =>
        refine .inr ⟨String.ofList (withLineFeeds content.toList), ?_⟩
        simp only [yaml, Bool.false_eq_true, if_false, String.toList_ofList, readable.whole yaml content stored]

theorem Readable.isInDocuments {fault : Fault} (failed : files.read path = .error fault) :
    fault.isInDocuments = true := by
  obtain yaml | missing | ⟨text, json⟩ := readable.read_cases
  · exact readable.answered yaml fault failed
  · obtain rfl := Except.error.inj (missing.symm.trans failed)
    rfl
  · rw [json] at failed
    cases parsed : Json.ofText text with
    | error cause =>
      rw [parsed] at failed
      cases failed
      rfl
    | ok value =>
      rw [parsed] at failed
      cases failed

theorem Readable.isWritable {value : Value} (found : files.read path = .ok value) : value.isWritable = true := by
  obtain yaml | missing | ⟨text, json⟩ := readable.read_cases
  · exact readable.named yaml value found
  · cases missing.symm.trans found
  · rw [json] at found
    cases parsed : Json.ofText text with
    | error cause =>
      rw [parsed] at found
      cases found
    | ok other =>
      rw [parsed] at found
      cases found
      exact Json.ofText_isWritable _ _ parsed

theorem form_loaded : Loaded (files.RefusesForm path)
    (fun form => Form.complaints form = [] ∧ form.isWritable = true) (files.form path) := by
  unfold form
  cases there : files.has path with
  | false => exact .refused (.inl there) rfl
  | true =>
    cases found : files.read path with
    | error fault => exact .refused (.inr (.inl ⟨fault, found⟩)) (readable.isInDocuments found)
    | ok form =>
      simp only [bind, Except.bind, Bool.not_true, Bool.false_eq_true, if_false]
      cases clean : Form.complaints form with
      | cons complaint complaints =>
        exact .refused (.inr (.inr ⟨form, found, clean ▸ List.cons_ne_nil _ _⟩)) rfl
      | nil =>
        refine .used ?_ ⟨clean, readable.isWritable found⟩
        rintro (absent | ⟨fault, failed⟩ | ⟨other, same, wrong⟩)
        · cases there.symm.trans absent
        · cases found.symm.trans failed
        · exact wrong (Except.ok.inj (found.symm.trans same) ▸ clean)

theorem data_loaded : Loaded (files.RefusesData path) (·.isWritable = true) (files.data path) := by
  unfold data
  cases found : files.read path with
  | error fault => exact .refused (.inr (.inl ⟨fault, found⟩)) (readable.isInDocuments found)
  | ok value =>
    have fine (holds : value = .null ∨ ∃ fields, value = .object fields) : ¬ files.RefusesData path := by
      rintro (absent | ⟨fault, failed⟩ | ⟨other, same, present, wrong⟩)
      · cases (has_of_read found).symm.trans absent
      · cases found.symm.trans failed
      · obtain rfl := Except.ok.inj (found.symm.trans same)
        obtain nothing | ⟨fields, shape⟩ := holds
        · exact present nothing
        · exact wrong fields shape
    have writable := readable.isWritable found
    simp only [bind, Except.bind]
    split
    · exact .used (fine (.inl rfl)) rfl
    · exact .used (fine (.inr ⟨_, rfl⟩)) writable
    next present wrong => exact .refused (.inr (.inr ⟨value, found, present, wrong⟩)) rfl

end Loading

variable {files}

/-- A document that has been read, and has neither days nor moments as names. -/
theorem readable_of_read {path : String} (found : (files.read path).toOption.map (·.isWritable) = some true) :
    files.Readable path := by
  have known {result : Except Fault Value} (same : files.read path = result) :
      result.toOption.map (·.isWritable) = some true := same ▸ found
  constructor
  · intro directory
    have broken : files.read path = .error (.directory (normal path)) := by rw [read, directory]
    cases known broken
  · intro json content stored
    refine Bool.eq_false_iff.mpr fun half => ?_
    have broken : files.read path = .error (.type .halfPair) := by
      rw [read, stored]
      simp only [valueOf, json, Bool.false_eq_true, if_false, String.toList_ofList, half, if_true]
    cases known broken
  · exact fun _ fault failed => nomatch known failed
  · exact fun _ value good => Option.some.inj (known good)

/-- Settings that are not there are the usual ones, and so are those that do not count as present. -/
theorem Configurable.settings_loaded {path : String} (configurable : files.Configurable path) :
    Loaded (files.RefusesSettings path) (·.tenant.isWritable = true) (files.settings (some path)) := by
  have readable := configurable.toReadable
  unfold settings
  cases there : files.has path with
  | false =>
    rw [Option.filter_some, there]
    exact .used (fun refused => Bool.false_ne_true (there.symm.trans refused.1)) rfl
  | true =>
    rw [Option.filter_some, there]
    simp only [if_true]
    cases found : files.read path with
    | error fault => exact .refused ⟨there, .inl ⟨fault, found⟩⟩ (readable.isInDocuments found)
    | ok value =>
      have same {other : Value} (read : files.read path = .ok other) : other = value :=
        Except.ok.inj (read.symm.trans found)
      simp only [bind, Except.bind]
      by_cases shape : ∃ fields, value = .object fields
      · obtain ⟨fields, rfl⟩ := shape
        -- an object without fields does not count as present, but what stands for it is the same
        have kept : (Value.object fields).orElse (.object []) = .object fields := by cases fields <;> rfl
        simp only [kept]
        cases accepted : Settings.ofValue (.object fields) with
        | error fault =>
          exact .refused ⟨there, .inr ⟨_, found, .inr ⟨fields, fault, rfl, accepted⟩⟩⟩
            (configurable.accepted fields fault found accepted)
        | ok given =>
          refine .used ?_ (Settings.tenant_isWritable (readable.isWritable found) given accepted)
          rintro ⟨_, ⟨fault, failed⟩ | ⟨other, read, ⟨_, wrong⟩ | ⟨_, fault, _, failed⟩⟩⟩
          · cases found.symm.trans failed
          · exact wrong fields (same read)
          · cases accepted.symm.trans (same read ▸ failed)
      · have wrong (fields : Fields) : value ≠ .object fields := fun known => shape ⟨fields, known⟩
        unfold Value.orElse
        by_cases present : value.truthy = true
        · simp only [present, if_true]
          exact .refused ⟨there, .inr ⟨value, found, .inl ⟨present, wrong⟩⟩⟩ rfl
        · simp only [present, if_false, Bool.false_eq_true]
          refine .used ?_ rfl
          rintro ⟨_, ⟨fault, failed⟩ | ⟨other, read, ⟨given, _⟩ | ⟨fields, _, known, _⟩⟩⟩
          · cases found.symm.trans failed
          · exact present (same read ▸ given)
          · exact wrong fields ((same read).symm.trans known)

theorem settings?_loaded {settings? : Option String} (each : ∀ path ∈ settings?, files.Configurable path) :
    Loaded (∃ path ∈ settings?, files.RefusesSettings path) (·.tenant.isWritable = true) (files.settings settings?) := by
  cases settings? with
  | none => exact .used (fun ⟨_, named, _⟩ => nomatch named) rfl
  | some path =>
    have only : (∃ other ∈ some path, files.RefusesSettings other) ↔ files.RefusesSettings path :=
      ⟨fun ⟨_, named, refused⟩ => Option.mem_some_iff.mp named ▸ refused, fun refused => ⟨path, rfl, refused⟩⟩
    rw [only]
    exact (each path rfl).settings_loaded

/-- What a check goes on with: a form in order, and nothing of which a report could not be written. -/
structure Usable (files : Files) (form data : String) (settings? : Option String) (loaded : Value × Value × Settings) :
    Prop where
  form : files.form form = .ok loaded.1
  data : files.data data = .ok loaded.2.1
  settings : files.settings settings? = .ok loaded.2.2
  clean : Form.complaints loaded.1 = []
  shape : loaded.1.isWritable = true
  held : loaded.2.1.isWritable = true
  tenant : loaded.2.2.tenant.isWritable = true

theorem documents_loaded {form data : String} {settings? : Option String} (shaped : files.Readable form)
    (given : files.Readable data) (configured : ∀ path ∈ settings?, files.Configurable path) :
    Loaded (files.Refuses form data settings?) (files.Usable form data settings?)
      (do return (← files.form form, ← files.data data, ← files.settings settings?)) := by
  refine (form_loaded shaped).bind fun shape readForm ⟨clean, sound⟩ => ?_
  refine (data_loaded given).bind fun held readData writable => ?_
  refine (settings?_loaded configured).map fun chosen readSettings tenant => ?_
  exact ⟨readForm, readData, readSettings, clean, sound, writable, tenant⟩

end Files

namespace Command

/-- A fault in a document is answered with the code 2. -/
theorem refused_yields {fault : Fault} (answered : fault.isInDocuments = true) : Yields (refused fault) (·.code = 2) := by
  have writable (details : List (String × Value)) (plain : details.all (·.2.isWritable) = true) :
      (Value.ofFields (("error", .text fault.message) :: details)).isWritable = true := by
    rw [Value.isWritable_ofFields, List.all_cons, plain]
    rfl
  unfold refused
  rw [answered]
  refine (Json.indented_yields _ (writable _ ?_) 0).bind fun text _ => .ok rfl
  split
  · exact Bool.and_eq_true_iff.mpr ⟨Value.isWritable_list_map.mpr fun _ _ => rfl, rfl⟩
  · rfl

/-- A report is printed whole, and the code tells whether it is a good one. -/
theorem answer_yields {report : Report} (writable : report.Writable) :
    Yields (answer report none) (·.code = if report.valid.truthy then 0 else 1) :=
  (Json.indented_yields _ writable.toValue 0).bind fun _ _ => .ok rfl

section

variable {files : Files} {form data : String} {settings? : Option String}

end

namespace Unfilled

/-- A form that asks for a city, data without one, and settings. -/
def files : Files := [
  ("form.json", .text
    "\x7b\"items\": [\x7b\"name\": \"city\", \"validationRules\": [\x7b\"type\": \"required\"\x7d]\x7d]\x7d"),
  ("data.yaml", .text "city: ''\n"),
  ("settings.json", .text "\x7b\"mode\": \"parallel\"\x7d")]

end Unfilled

end Command

end FormRules

import FormRules.CommandLine.Run
import FormRules.Proofs.PassOutcome

/-! What is said about a single field when the pass was broken off. The report of such a pass has no outcome of
the field, and a field without an outcome counts as valid: so every field is cleared that was never checked,
while the report as a whole is not valid. -/

namespace FormRules

namespace Validator

theorem outcome?_systemReport (message : String) (key : Scalar) :
    (systemReport message).outcome? (.scalar key) = .ok (if wholeForm.coincides key then
      some { valid := .bool false, errors := (systemReport message).errors } else none) := rfl

theorem wholeForm_coincides_text (field : String) : wholeForm.coincides (.text field) = (field == "_global") := by
  rw [wholeForm, Scalar.coincides_text, Bool.beq_comm]

/-- Only the name that stands for the form as a whole is not cleared. -/
theorem onField_systemReport (message field : String) :
    ∃ only, onField (systemReport message) (.text field) = .ok only ∧ only.valid = .bool (field != "_global") := by
  unfold onField
  rw [outcome?_systemReport, wholeForm_coincides_text]
  by_cases whole : field = "_global"
  · subst whole
    exact ⟨_, rfl, rfl⟩
  · rw [beq_false_of_ne whole, bne_iff_ne.mpr whole]
    exact ⟨_, rfl, rfl⟩

theorem answer_systemReport (message field : String) :
    ∃ printed, Command.answer (systemReport message) (some field) = .ok printed ∧
      printed.code = if field = "" ∨ field = "_global" then 1 else 0 := by
  by_cases blank : field = ""
  · subst blank
    exact ⟨_, rfl, rfl⟩
  · have present : field.isEmpty = false := by simpa using blank
    have asked : Command.answer (systemReport message) (some field) =
        Command.fieldAnswer (systemReport message) field := by
      simp only [Command.answer, Option.filter, present, Bool.not_false, if_true]
    rw [asked, Command.fieldAnswer, outcome?_systemReport]
    by_cases whole : field = "_global"
    · subst whole
      exact ⟨_, rfl, rfl⟩
    · have apart : wholeForm.coincides (.text field) = false :=
        (wholeForm_coincides_text field).trans (beq_false_of_ne whole)
      have unnamed : (systemReport message).errorsOf (.text field) = [] := by
        have other : (Value.text "_global").same (.text field) = false :=
          (Value.same_text _ _).trans (beq_false_of_ne (Ne.symm whole))
        simp [Report.errorsOf, systemReport, other]
      rw [unnamed, apart]
      refine ⟨_, rfl, ?_⟩
      simp [blank, whole, Value.truthy]

/-- A report that says nothing about the pass is that of a pass that was broken off. -/
theorem systemReport_of_metadata {σ : Type} {backend : Backend σ} {settings : Settings} {submission : Submission}
    {state : σ} (silent : (validate backend settings submission state).1.metadata.isNull = true) :
    ∃ message, (validate backend settings submission state).1 = systemReport message := by
  obtain ⟨drawn, whole, _, _, _, finished⟩ | ⟨fault, _, broken⟩ := validate_cases backend settings submission state
  · rw [finished] at silent
    cases silent
  · exact ⟨_, broken.trans (brokenOff_eq fault)⟩

/-- A pass that is broken off clears every single field: asked about a field, it has no errors, and the command
for that field ends as if all was well. It does not only for the name of the whole form, and for no name, which
asks for the whole report. -/
theorem systemReport_clears (field : String) :
    (∀ {σ : Type} (backend : Backend σ) (settings : Settings) (submission : Submission) (state : σ) (message : String),
      (validate backend settings submission state).1 = systemReport message →
      ∃ only, onField (validate backend settings submission state).1 (.text field) = .ok only ∧
        only.valid = .bool (field != "_global")) ∧
    ∀ (files : Files) (now : Moment) (transport : Rule.Transport) (formPath dataPath : String)
      (settingsPath? : Option String) (withGraph : Bool) (form data : Value) (given : Settings) (message : String),
      files.form formPath = .ok form → files.data dataPath = .ok data → files.settings settingsPath? = .ok given →
      let settings := { given with devtools := given.devtools || withGraph }
      (validate (Rule.check (means settings [] transport)) settings { data, form, now } {}).1 = systemReport message →
      ∃ printed, (Command.validate formPath dataPath settingsPath? (some field) withGraph).run files now transport =
        .ok printed ∧ printed.code = if field = "" ∨ field = "_global" then 1 else 0 := by
  constructor
  · intro σ backend settings submission state message broken
    rw [broken]
    exact onField_systemReport message field
  · intro files now transport formPath dataPath settingsPath? withGraph form data given message readForm readData
      readSettings settings broken
    have answered : (Command.validate formPath dataPath settingsPath? (some field) withGraph).run files now transport =
        Command.answer (validate (Rule.check (means settings [] transport)) settings { data, form, now } {}).1
          (some field) := by
      simp only [Command.run, readForm, readData, readSettings]
      rfl
    rw [answered, broken]
    exact answer_systemReport message field

namespace Tagged

/-- A form that asks for a tag, at a place that reads like a position in a list and is none. -/
def form : String := "items:
- name: tags.²
  validationRules:
  - type: required
"

def data : String := "tags: []
"

def files : Files := [("form.yaml", .text form), ("data.yaml", .text data)]

def now : Moment := .earliest

def report : Except Fault Report := do
  let form ← files.form "form.yaml"
  let data ← files.data "data.yaml"
  return (validate (Rule.check (means {} [] .offline)) {} { data, form, now } {}).1

end Tagged

open Tagged in
theorem systemReport_clears_tag :
    ∃ form data message only printed,
      files.form "form.yaml" = .ok form ∧ files.data "data.yaml" = .ok data ∧
      (validate (Rule.check (means {} [] .offline)) {} { data, form, now } {}).1 = systemReport message ∧
      onField (systemReport message) (.text "tags.²") = .ok only ∧ only.valid = .bool true ∧
      (Command.validate "form.yaml" "data.yaml" none (some "tags.²") false).run files now .offline = .ok printed ∧
      printed.code = 0 := by
  have silent : (report.map (·.metadata.isNull)).toOption = some true := by decide +kernel
  cases readForm : files.form "form.yaml" with
  | error fault =>
    rw [report, readForm] at silent
    cases silent
  | ok form =>
    cases readData : files.data "data.yaml" with
    | error fault =>
      rw [report, readForm, readData] at silent
      cases silent
    | ok data =>
      rw [report, readForm, readData] at silent
      obtain ⟨message, broken⟩ := systemReport_of_metadata (Option.some.inj silent)
      obtain ⟨only, read, valid⟩ := (systemReport_clears "tags.²").1 _ _ _ _ message broken
      obtain ⟨printed, ended, code⟩ := (systemReport_clears "tags.²").2 files now .offline "form.yaml" "data.yaml" none
        false form data {} message readForm readData rfl broken
      rw [broken] at read
      exact ⟨form, data, message, only, printed, rfl, rfl, broken, read, valid, ended, code⟩

open Tagged in
/-- The one field of a form is cleared by a pass that was broken off when its value was looked up. -/
theorem broken_pass_clears_tag :
    (report.map fun whole => whole.errors.map (·.rule.shown)).toOption = some ["system_error"] ∧
    (report.bind fun whole => (onField whole (.text "tags.²")).map (·.valid.truthy)).toOption = some true ∧
    ((Command.validate "form.yaml" "data.yaml" none (some "tags.²") false).run files now .offline).toOption.map (·.code) =
      some 0 := by
  decide +kernel

end Validator

end FormRules

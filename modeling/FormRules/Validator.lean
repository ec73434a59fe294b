import FormRules.Dependency.Document
import FormRules.Dependency.Extract
import FormRules.Pass.Form
import FormRules.Report.Document

/-!
Validating data against a form. A pass that cannot be completed gives a report with one error for the
form as a whole and nothing else.
-/

namespace FormRules

/-- Data with the form they are for. -/
structure Submission where
  data : Value
  form : Value
  external : Value := .null
  now : Moment

namespace Submission

/-- The context of a pass; a form that is left out is empty. -/
def context (submission : Submission) (settings : Settings) : Context where
  data := submission.data
  form := submission.form.orElse (.object [])
  settings := settings
  path := []
  external := submission.external
  timestamp := submission.now
  params := .null
  caching := settings.cache.enabled

end Submission

namespace Validator

/-- The standard backend with the validators that settings name. -/
def means (settings : Settings) (table : Callback.Table) (transport : Rule.Transport) : Rule.Means where
  callbacks := { registry := Registry.standard.withValidators table settings.validators, table }
  transport := transport

/-- What a report says about the pass itself. -/
def metadata (settings : Settings) (now : Moment) : Value := .ofFields [
  ("timestamp", .text now.isoText),
  ("duration_ms", .float .zero),
  ("execution_mode", .text settings.mode.carriedOut),
  ("tenant_context", settings.tenant)]

def wholeForm : Scalar := .text "_global"

/-- The error of a pass that cannot be completed. -/
def systemError (fault : Fault) : FieldError where
  field := .scalar wholeForm
  message := (Value.text fault.message).orElse (.text "Unknown validation error")
  rule := .text "system_error"

/-- The report of a pass that cannot be completed. -/
def brokenOff (fault : Fault) : Report := (({} : Report).addError (systemError fault)).2

/-- The report of a pass that has been completed. -/
def completed (settings : Settings) (now : Moment) (graph : Dependency.Graph) (checked : Report) :
    Report :=
  { ({} : Report).merge checked with
    metadata := metadata settings now
    graph := if settings.devtools then graph.toValue else .null }

/-- Checks data against a form. -/
def validate (backend : Backend σ) (settings : Settings) (submission : Submission) (state : σ) :
    Report × σ :=
  match Dependency.Graph.ofForm submission.form with
  | .error fault => (brokenOff fault, state)
  | .ok graph =>
    let steps := Pass.checkForm backend (submission.context settings)
    match steps.run.run { backend := state } with
    | (.error fault, progress) => (brokenOff fault, progress.backend)
    | (.ok checked, progress) => (completed settings submission.now graph checked, progress.backend)

/-- What a report says about one field: its errors, if it is not valid. -/
def onField (report : Report) (field : Value) : Except Fault Report := do
  match ← report.outcome? field with
  | none => return {}
  | some outcome =>
    if outcome.valid.truthy then return {}
    else
      let (result, only) := ({} : Report).addErrors outcome.errors
      result
      return only

end Validator

end FormRules

import FormRules.Report.Basic
import FormRules.Value.Whole

/-!
Reports as documents, and reports read back from them. Parts that are missing are taken as empty.
-/

namespace FormRules

namespace FieldError

def toValue (error : FieldError) : Value := .ofFields [
  ("field", error.field),
  ("message", error.message),
  ("rule", error.rule),
  ("params", error.params),
  ("path", error.path)]

def ofValue (value : Value) : Except Fault FieldError := do
  let fields ← value.asObject
  let text (name : String) : Value := (Keyed.find? fields (.text name)).getD (.text "")
  return ⟨text "field", text "message", text "rule", Fields.get fields "params", Fields.get fields "path"⟩

/-- The errors that a field of a document lists. -/
def listOf (fields : Fields) : Except Fault (List FieldError) := do
  let items ← ((Keyed.find? fields (.text "errors")).getD (.list [])).items
  items.mapM ofValue

end FieldError

namespace FieldOutcome

def toValue (outcome : FieldOutcome) : Value := .ofFields [
  ("valid", outcome.valid),
  ("errors", .list (outcome.errors.map FieldError.toValue)),
  ("skipped", outcome.skipped),
  ("skip_reason", outcome.reason)]

def ofValue (value : Value) : Except Fault FieldOutcome := do
  let fields ← value.asObject
  return {
    valid := (Keyed.find? fields (.text "valid")).getD (.bool true)
    errors := ← FieldError.listOf fields
    skipped := (Keyed.find? fields (.text "skipped")).getD (.bool false)
    reason := Fields.get fields "skip_reason" }

def ofEntries : Fields → Except Fault (Keyed FieldOutcome)
  | [] => .ok []
  | (key, value) :: rest => do return (key, ← ofValue value) :: (← ofEntries rest)

end FieldOutcome

namespace Tally

def toValue (tally : Tally) : Value := .ofFields [
  ("total_rules", .int tally.total),
  ("passed_rules", .int tally.passed),
  ("failed_rules", .int tally.failed),
  ("skipped_rules", .int tally.skipped),
  ("computed_rules", .int tally.computed)]

/-- A count in a document, which has to be a whole number. -/
def countOf (value : Value) : Except Fault Int :=
  match value with
  | .int n => .ok n
  | value => .error (.type (.notWhole value.kind))

/-- The counts with one of them set by its name. -/
def setCount (tally : Tally) (key : Scalar) (value : Value) : Except Fault Tally := do
  match key with
  | .text "total_rules" => return { tally with total := ← countOf value }
  | .text "passed_rules" => return { tally with passed := ← countOf value }
  | .text "failed_rules" => return { tally with failed := ← countOf value }
  | .text "skipped_rules" => return { tally with skipped := ← countOf value }
  | .text "computed_rules" => return { tally with computed := ← countOf value }
  | key => throw (.type (.unknownEntry (Value.scalar key).shown))

def ofValue (value : Value) : Except Fault Tally :=
  match value with
  | .object fields => fields.foldlM (fun tally (key, value) => tally.setCount key value) {}
  | value => .error (.type (.notMapping value.kind))

end Tally

def Computed.toValue : Computed → Value
  | .plain value => value
  | .score result => result.toValue
  | .rollup result => result.toValue

namespace Report

def toValue (report : Report) : Value := .ofFields [
  ("valid", report.valid),
  ("errors", .list (report.errors.map FieldError.toValue)),
  ("field_results", .object (report.fields.map fun (key, outcome) => (key, outcome.toValue))),
  ("computed_results", .object (report.computed.map fun (key, result) => (key, result.toValue))),
  ("metadata", report.metadata),
  ("stats", (report.tally?.map Tally.toValue).getD .null),
  ("dependency_graph", report.graph)]

/-- The entries of an object that may be missing. -/
def entriesOf (value : Value) : Except Fault Fields :=
  match value.orElse (.object []) with
  | .object fields => .ok fields
  | value => .error (.attribute value.kind "items")

def ofValue (value : Value) : Except Fault Report := do
  let document ← value.asObject
  let stats := Fields.get document "stats"
  let errors ← FieldError.listOf document
  let fields ← FieldOutcome.ofEntries (← entriesOf (Fields.get document "field_results"))
  let computed ← ((Fields.get document "computed_results").orElse (.object [])).toFields
  let tally? ← if stats.truthy then (Tally.ofValue stats).map some else pure none
  return {
    valid := (Keyed.find? document (.text "valid")).getD (.bool true)
    errors, fields, tally?
    computed := computed.map fun (key, value) => (key, .plain value)
    metadata := Fields.get document "metadata"
    graph := Fields.get document "dependency_graph" }

end Report

end FormRules

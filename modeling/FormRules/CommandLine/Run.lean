import FormRules.CommandLine.Command
import FormRules.Files
import FormRules.Json.Writer
import FormRules.Validator

/-!
Carrying out commands. A fault in what was given is answered; any other fault breaks off the run.
-/

namespace FormRules

open CommandLine

/-- What a run prints, and the code that it ends with. -/
structure Printed where
  code : Nat
  output : String := ""
  errors : String := ""

namespace Printed

def ofRefusal : Refusal → Printed
  | .help => { code := 0, output := Command.usage }
  | .usage => { code := 2, errors := Command.usage }

/-- A value in the output; the code tells whether it reports a success. -/
def ofValue (passed : Bool) (value : Value) : Except Fault Printed := do
  return { code := if passed then 0 else 1, output := (← Json.indented 0 value) ++ "\n" }

end Printed

/-- Whether a fault lies in the documents that were given. -/
def Fault.isInDocuments : Fault → Bool
  | .missing _ => true
  | fault => fault.isValueFault

namespace Command

def complaintValue (complaint : Complaint) : Value :=
  .ofFields [("path", .text complaint.path), ("message", .text complaint.message)]

/-- The answer to documents that cannot be used. -/
def refused (fault : Fault) : Except Fault Printed := do
  if !fault.isInDocuments then throw fault
  let details := match fault with
    | .form _ complaints => [("details", Value.list (complaints.map complaintValue))]
    | _ => []
  let text ← Json.indented 0 (.ofFields (("error", .text fault.message) :: details))
  return { code := 2, errors := text ++ "\n" }

/-- Goes on with what has been loaded. -/
def afterLoading (loaded : Except Fault α) (goOn : α → Except Fault Printed) : Except Fault Printed :=
  match loaded with
  | .error fault => refused fault
  | .ok value => goOn value

/-- What a report says about one field, as a document. -/
def fieldAnswer (report : Report) (field : String) : Except Fault Printed := do
  let outcome? ← report.outcome? (.text field)
  let valid := (outcome?.map FieldOutcome.valid).getD (.bool true)
  Printed.ofValue valid.truthy (.ofFields [
    ("field", .text field),
    ("valid", valid),
    ("skipped", (outcome?.map FieldOutcome.skipped).getD (.bool false)),
    ("errors", .list ((report.errorsOf (.text field)).map FieldError.toValue))])

def answer (report : Report) (field? : Option String) : Except Fault Printed :=
  match field?.filter (!·.isEmpty) with
  | some field => fieldAnswer report field
  | none => Printed.ofValue report.valid.truthy report.toValue

/-- Carries out a command with the files at hand. -/
def run (files : Files) (now : Moment) (transport : Rule.Transport) : Command → Except Fault Printed
  | .validate form data settings? field? withGraph =>
    let loaded := do return (← files.form form, ← files.data data, ← files.settings settings?)
    afterLoading loaded fun (form, data, settings) =>
      let settings := { settings with devtools := settings.devtools || withGraph }
      let backend := Rule.check (Validator.means settings [] transport)
      answer (Validator.validate backend settings { data, form, now } {}).1 field?
  | .graph form asDiagram =>
    afterLoading (files.form form) fun form => do
      let graph ← Dependency.Graph.ofForm form
      if asDiagram then return { code := 0, output := (← graph.diagram) ++ "\n" }
      else Printed.ofValue true graph.toValue

/-- Carries out the command that arguments give. -/
def runWith (files : Files) (now : Moment) (transport : Rule.Transport) (texts : List String) :
    Except Fault Printed :=
  match ofArguments texts with
  | .error refusal => .ok (.ofRefusal refusal)
  | .ok command => command.run files now transport

end Command

end FormRules

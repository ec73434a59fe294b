import FormRules.CommandLine.Arguments

/-!
The commands of the command line.
-/

namespace FormRules

open CommandLine

inductive Command where
  /-- Checks data against a form. -/
  | validate (form data : String) (settings? field? : Option String) (withGraph : Bool)
  /-- Shows the fields of a form by what they depend on. -/
  | graph (form : String) (asDiagram : Bool)
deriving DecidableEq, Repr

namespace Command

def verbose : Flag := { names := ["-v", "--verbose"] }

def settings : Flag := { names := ["--settings"], takesValue := true }

def field : Flag := { names := ["--field"], takesValue := true }

def withGraph : Flag := { names := ["--graph"] }

def asDiagram : Flag := { names := ["--mermaid"] }

/-- A command by its name, and whether it was given arguments of no use. -/
def ofName (name : String) (texts : List String) : Except Refusal Command := do
  match name with
  | "validate" =>
    let given ← Given.ofTexts [.help, settings, field, withGraph] 2 texts
    match given.words, given.hasExtra with
    | [form, data], false =>
      return .validate form data (given.value? settings) (given.value? field) (given.has withGraph)
    | _, _ => throw .usage
  | "graph" =>
    let given ← Given.ofTexts [.help, asDiagram] 1 texts
    match given.words, given.hasExtra with
    | [form], false => return .graph form (given.has asDiagram)
    | _, _ => throw .usage
  | _ => throw .usage

/-- The first word names the command; what follows belongs to it. -/
def ofSorted (given : Given) : List (Argument × String) → Except Refusal Command
  | [] => .error (if given.hasExtra then .usage else .help)
  | (.word name, _) :: rest => do
    let command ← ofName name (rest.map (·.2))
    if given.hasExtra then throw .usage else return command
  | (.hyphens, _) :: _ => .error .usage
  | (argument, _) :: rest => do ofSorted (← given.take [.help, verbose] 0 false [argument]) rest

def ofArguments (texts : List String) : Except Refusal Command := do
  let arguments ← Argument.sort [.help, verbose] texts
  ofSorted {} (arguments.zip texts)

/-- How the commands are given. -/
def usage : String := String.intercalate "\n" [
  "usage: formrules [-h] [-v] [validate FORM DATA | graph FORM] ...",
  "  validate [-h] [--settings FILE] [--field NAME] [--graph] FORM DATA",
  "  graph [-h] [--mermaid] FORM",
  ""]

/-- The paths of the documents that a command reads. -/
def paths : Command → List String
  | .validate form data settings? _ _ => form :: data :: settings?.toList
  | .graph form _ => [form]

end Command

end FormRules

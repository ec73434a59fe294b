import FormRules.Pass.Group

/-!
The rules of a field. Each rule and each group is counted once: as passed, failed, skipped or scored; a
failure is an error of the field.
-/

namespace FormRules

namespace Tally

/-- The counts with another rule that has been met. -/
def meet (tally : Tally) : Tally := { tally with total := tally.total + 1 }

def skip (tally : Tally) : Tally := { tally with skipped := tally.skipped + 1 }

def compute (tally : Tally) : Tally := { tally with computed := tally.computed + 1 }

def pass (tally : Tally) : Tally := { tally with passed := tally.passed + 1 }

def fail (tally : Tally) : Tally := { tally with failed := tally.failed + 1 }

/-- The counts with some rules that have been met and skipped. -/
def skipAll (tally : Tally) (count : Nat) : Tally :=
  { tally with total := tally.total + count, skipped := tally.skipped + count }

end Tally

namespace Pass

/-- The parameters of a rule that its errors show. -/
def shownParams : List String :=
  ["min", "max", "pattern", "comparisonTarget", "comparisonType", "targetFields"]

def errorParams (rule : Fields) : Value :=
  let given := shownParams.map fun name => (name, Fields.get rule name)
  let callback := Fields.get rule "crossFieldValidator"
  .ofFields (given.filter (fun (_, value) => !value.isNull) ++
    if callback.isText then [("crossFieldValidator", callback)] else [])

/-- The path of the context in which an error arose, null for the form as a whole. -/
def errorPath (context : Context) : Value :=
  if context.path.isEmpty then .null else .list context.path

def ruleError (subject : Subject) (rule : Fields) (outcome : Outcome) : FieldError where
  field := subject.path
  message := outcome.reason rule
  rule := Fields.get rule "type"
  params := errorParams rule
  path := errorPath subject.context

def groupError (subject : Subject) (operator : GroupOperator) (message : Value) : FieldError where
  field := subject.path
  message
  rule := .text "group"
  params := .ofFields [("operator", .text operator.name)]
  path := errorPath subject.context

def count (change : Tally → Tally) : Pass σ Unit :=
  modify fun progress =>
    { progress with report := { progress.report with tally? := progress.report.tally?.map change } }

def addError (error : FieldError) : Pass σ Unit := fun progress =>
  let (result, report) := progress.report.addError error
  (result, { progress with report })

/-- Notes a failure of a rule or a group. -/
def failWith (error : FieldError) : Pass σ Bool := do
  count Tally.fail
  addError error
  return true

def passed : Pass σ Bool := do
  count Tally.pass
  return false

/-- Checks a rule, and says whether it has failed. -/
def checkRule (backend : Backend σ) (subject : Subject) (rule : Fields) : Pass σ Bool := do
  count Tally.meet
  match subject.stance rule with
  | .skipped =>
    count Tally.skip
    return false
  | .scored =>
    count Tally.compute
    score subject rule
    return false
  | .judged =>
    let outcome ← judge backend subject rule
    if outcome.valid then passed else failWith (ruleError subject rule outcome)

def checkGroup (backend : Backend σ) (subject : Subject) (operator : GroupOperator) (fields : Fields)
    (children : List RuleNode) : Pass σ Bool := do
  count Tally.meet
  match ← evaluate backend subject operator fields children with
  | none => passed
  | some message => failWith (groupError subject operator message)

def checkNode (backend : Backend σ) (subject : Subject) : RuleNode → Pass σ Bool
  | .rule rule => checkRule backend subject rule
  | .group operator fields children => checkGroup backend subject operator fields children
  | .other => return false
  | .faulty fault => throw fault

/-- Checks rules and groups, and says whether any has failed. -/
def checkNodes (backend : Backend σ) (subject : Subject) : List RuleNode → Pass σ Bool
  | [] => return false
  | node :: nodes => do
    let failed ← checkNode backend subject node
    let others ← checkNodes backend subject nodes
    return failed || others

/-- Checks rules and groups; a field for which none fails is valid. -/
def checkAll (backend : Backend σ) (subject : Subject) (nodes : List RuleNode) : Pass σ Unit := do
  let failed ← checkNodes backend subject nodes
  if !failed then
    let progress ← get
    let report ← progress.report.setValid subject.path
    set { progress with report }

end Pass

/-- A report that counts. -/
def Report.ensureCounting (report : Report) : Report :=
  { report with tally? := some (report.tally?.getD {}) }

/-- Checks one rule or group on its own and adds what comes of it to a report. -/
def Pass.checkAlone (backend : Backend σ) (subject : Subject) (rule : Value) (report : Report)
    (state : σ) : Except Fault Report × Report × σ :=
  let start : Progress σ := { backend := state, report := report.ensureCounting }
  match (Pass.checkAll backend subject [RuleNode.ofValue rule]).run.run start with
  | (.error fault, progress) => (.error fault, progress.report, progress.backend)
  | (.ok (), progress) =>
    let report := progress.scores.foldl (fun report (field, score) =>
      report.addComputed field (.score score)) progress.report
    (.ok report, report, progress.backend)

end FormRules

import FormRules.Pass.Field
import FormRules.Scoring.Rollup

/-!
A pass over a form: all its items in order, then the rules that score the form as a whole. A rule at
fault there is left out; it leaves no trace.
-/

namespace FormRules

/-- The scores of a form: those of its fields, and those summed up from them by name. -/
structure FormScores where
  scores : Keyed Scoring.Score
  rollups : Keyed Scoring.Rollup := []

namespace FormScores

/-- Scores with that of a field to which a rule of the form gives one. -/
def scoreField (context : Context) (rule : Fields) (all : FormScores) : Except Fault FormScores := do
  let field := Fields.get rule "fieldName"
  if field.truthy then
    return { all with scores := ← Pass.withScore all.scores field (← context.value field) rule }
  else return all

/-- Scores with a sum of those so far. -/
def sumUp (rule : Fields) (all : FormScores) : Except Fault FormScores := do
  let rollup ← Scoring.Rollup.ofScores all.scores rule
  return { all with rollups := Keyed.insert all.rollups (← (Fields.get rule "name").asKey) rollup }

def apply (context : Context) (rule : Fields) (all : FormScores) : Except Fault FormScores :=
  let type := Fields.get rule "type"
  if type.same (.text "field") then scoreField context rule all
  else if type.same (.text "aggregate") then sumUp rule all
  else .ok all

/-- Scores after some rules; only a rule that is no object ends them. -/
def applyAll (context : Context) (all : FormScores) : List Value → Except Fault FormScores
  | [] => .ok all
  | rule :: rules => do
    let fields ← rule.asObject
    match apply context fields all with
    | .ok more => applyAll context more rules
    | .error _ => applyAll context all rules

/-- The report with all scores; that of a field replaces a sum of the same name. -/
def addTo (all : FormScores) (report : Report) : Report :=
  let report := all.rollups.foldl (fun report (name, rollup) =>
    report.addComputed name (.rollup rollup)) report
  all.scores.foldl (fun report (name, score) => report.addComputed name (.score score)) report

end FormScores

namespace Pass

/-- The members of a list that a form may leave out. -/
def listIn (form : Fields) (name : String) : Except Fault (List Value) :=
  ((Fields.get form name).orElse (.list [])).items

/-- The report of a form. -/
def checkForm (backend : Backend σ) (context : Context) : Pass σ Report := do
  let form ← context.form.asObject
  let items ← listIn form "items"
  let report ← checkItems backend context (.text "") Report.counting (Item.ofList items)
  let rules ← listIn form "computedRules"
  let all ← FormScores.applyAll context { scores := (← get).scores } rules
  return all.addTo report

end Pass

end FormRules

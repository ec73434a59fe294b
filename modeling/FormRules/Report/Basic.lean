import FormRules.Scoring.Rollup

/-!
Reports: the outcome of a pass by field, with its errors in order, the scores, and the counts of rules.
What a report was given is kept as it is, so that a report read from a document shows the same again.
-/

namespace FormRules

/-- One failure of a field. -/
structure FieldError where
  field : Value
  message : Value
  rule : Value
  params : Value := .null
  path : Value := .null

/-- The outcome of a field. -/
structure FieldOutcome where
  valid : Value := .bool true
  errors : List FieldError := []
  skipped : Value := .bool false
  reason : Value := .null

/-- How many rules were met, and what became of them. -/
structure Tally where
  total : Int := 0
  passed : Int := 0
  failed : Int := 0
  skipped : Int := 0
  computed : Int := 0
deriving DecidableEq

/-- A result that is not about validity. -/
inductive Computed where
  | plain (value : Value)
  | score (score : Scoring.Score)
  | rollup (rollup : Scoring.Rollup)

structure Report where
  valid : Value := .bool true
  errors : List FieldError := []
  fields : Keyed FieldOutcome := []
  computed : Keyed Computed := []
  metadata : Value := .null
  tally? : Option Tally := none
  graph : Value := .null

namespace Tally

def add (first second : Tally) : Tally where
  total := first.total + second.total
  passed := first.passed + second.passed
  failed := first.failed + second.failed
  skipped := first.skipped + second.skipped
  computed := first.computed + second.computed

theorem add_assoc (first second third : Tally) :
    (first.add second).add third = first.add (second.add third) := by
  simp only [add, Int.add_assoc]

theorem add_comm (first second : Tally) : first.add second = second.add first := by
  simp only [add, Int.add_comm]

end Tally

namespace Report

/-- A report that counts rules, from nothing. -/
def counting : Report := { tally? := some {} }

/-- Records an error with a field, which is invalid from then on. -/
def addToField (fields : Keyed FieldOutcome) (key : Scalar) (error : FieldError) :
    Keyed FieldOutcome :=
  let outcome := (Keyed.find? fields key).getD {}
  Keyed.insert fields key { outcome with valid := .bool false, errors := outcome.errors ++ [error] }

/-- Records an error. An error whose field cannot be a key is listed all the same before it is found
to be at fault. -/
def addError (report : Report) (error : FieldError) : Except Fault Unit × Report :=
  let listed := { report with valid := .bool false, errors := report.errors ++ [error] }
  match error.field.asKey with
  | .ok key => (.ok (), { listed with fields := addToField report.fields key error })
  | .error fault => (.error fault, listed)

/-- Records errors up to the first one at fault. -/
def addErrors (report : Report) : List FieldError → Except Fault Unit × Report
  | [] => (.ok (), report)
  | error :: errors =>
    match report.addError error with
    | (.ok (), report) => report.addErrors errors
    | (.error fault, report) => (.error fault, report)

/-- Marks a field as valid; what else is known of it stays. -/
def setValid (report : Report) (field : Value) : Except Fault Report := do
  let key ← field.asKey
  let outcome := (Keyed.find? report.fields key).getD {}
  let outcome := { outcome with valid := .bool true, skipped := .bool false }
  return { report with fields := Keyed.insert report.fields key outcome }

/-- Marks a field as skipped; what was known of it is forgotten. -/
def setSkipped (report : Report) (field reason : Value) : Except Fault Report := do
  let key ← field.asKey
  let outcome : FieldOutcome := { skipped := .bool true, reason }
  return { report with fields := Keyed.insert report.fields key outcome }

def addComputed (report : Report) (key : Scalar) (computed : Computed) : Report :=
  { report with computed := Keyed.insert report.computed key computed }

/-- A flag that stays up only if another one is up. -/
def bothValid (flag other : Value) : Value := if other.truthy then flag else .bool false

/-- An outcome with a later one for the same field. -/
def mergeOutcome (outcome later : FieldOutcome) : FieldOutcome :=
  { outcome with
    valid := bothValid outcome.valid later.valid
    errors := outcome.errors ++ later.errors }

/-- Outcomes with later ones; a field that is new comes last. -/
def mergeFields (fields : Keyed FieldOutcome) : Keyed FieldOutcome → Keyed FieldOutcome
  | [] => fields
  | (key, later) :: rest =>
    let merged :=
      match Keyed.find? fields key with
      | some outcome => mergeOutcome outcome later
      | none => later
    mergeFields (Keyed.insert fields key merged) rest

def mergeTally (tally? later? : Option Tally) : Option Tally :=
  match later? with
  | none => tally?
  | some later => some ((tally?.getD {}).add later)

/-- A report with a later one folded into it. Later results of computation replace earlier ones. -/
def merge (report later : Report) : Report :=
  { report with
    valid := bothValid report.valid later.valid
    errors := report.errors ++ later.errors
    fields := mergeFields report.fields later.fields
    computed := Keyed.merge report.computed later.computed
    tally? := mergeTally report.tally? later.tally? }

/-- The errors of a field. -/
def errorsOf (report : Report) (field : Value) : List FieldError :=
  report.errors.filter (·.field.same field)

def outcome? (report : Report) (field : Value) : Except Fault (Option FieldOutcome) := do
  return Keyed.find? report.fields (← field.asKey)

/-- Whether a field is valid; one that is not known is. -/
def isValid (report : Report) (field : Value) : Except Fault Value := do
  return ((← report.outcome? field).map (·.valid)).getD (.bool true)

def isSkipped (report : Report) (field : Value) : Except Fault Value := do
  return ((← report.outcome? field).map (·.skipped)).getD (.bool false)

end Report

end FormRules

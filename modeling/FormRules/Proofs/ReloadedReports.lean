import FormRules.Proofs.Agreement
import FormRules.Proofs.KeyedOrder
import FormRules.Report.Document

/-! Reports that are written as documents and read back. The documents keep everything but what computed results are
made of: a score comes back as the plain value that it shows. No operation on reports looks at that, so one that was
read back goes on like the one that was written. -/

namespace FormRules

theorem FieldError.ofValue_toValue (error : FieldError) : ofValue error.toValue = .ok error := rfl

theorem Fault.mapM_map_ok {α β : Type} {f : α → β} {g : β → Except Fault α}
    (back : ∀ item, g (f item) = .ok item) (items : List α) : (items.map f).mapM g = .ok items := by
  induction items with
  | nil => rfl
  | cons item items ih =>
    rw [List.map_cons, List.mapM_cons, back, ih]
    rfl

theorem FieldOutcome.ofValue_toValue (outcome : FieldOutcome) : ofValue outcome.toValue = .ok outcome := by
  have listed := Fault.mapM_map_ok FieldError.ofValue_toValue outcome.errors
  show ((outcome.errors.map FieldError.toValue).mapM FieldError.ofValue >>= _) = _
  rw [listed]
  rfl

theorem FieldOutcome.ofEntries_toValue (fields : Keyed FieldOutcome) :
    ofEntries (Keyed.mapValues toValue fields) = .ok fields := by
  induction fields with
  | nil => rfl
  | cons entry fields ih =>
    show (do return (entry.1, ← ofValue entry.2.toValue) :: (← ofEntries (Keyed.mapValues toValue fields))) = _
    rw [ofValue_toValue, ih]
    rfl

theorem Tally.ofValue_toValue (tally : Tally) : ofValue tally.toValue = .ok tally := rfl

/-- A computed result as the plain value that it shows. -/
def Computed.plainly (result : Computed) : Computed := .plain result.toValue

namespace Report

/-- A report with its computed results as the plain values that they show. -/
def plainly (report : Report) : Report := { report with computed := Keyed.mapValues Computed.plainly report.computed }

theorem toValue_plainly (report : Report) : report.plainly.toValue = report.toValue := by
  simp only [toValue, plainly, Keyed.mapValues, List.map_map, Function.comp_def, Computed.plainly, Computed.toValue]

theorem mapValues_plainly (results : Keyed Computed) :
    Keyed.mapValues Computed.plainly (Keyed.mapValues Computed.plainly results) = Keyed.mapValues Computed.plainly results :=
  List.map_map ..

theorem plainly_plainly (report : Report) : report.plainly.plainly = report.plainly := by
  rw [plainly, plainly, mapValues_plainly]

/-- Reading a report back gives what its document shows of it. -/
theorem ofValue_toValue (report : Report) : ofValue report.toValue = .ok report.plainly := by
  have errors := Fault.mapM_map_ok FieldError.ofValue_toValue report.errors
  have fields := FieldOutcome.ofEntries_toValue report.fields
  have entries (fields : Fields) : entriesOf (.object fields) = .ok fields := by cases fields <;> rfl
  have results (fields : Fields) : ((Value.object fields).orElse (.object [])).toFields = .ok fields := by
    cases fields <;> rfl
  let stats := (report.tally?.map Tally.toValue).getD .null
  -- what is asked of the document is what was put into it
  show (do
    let errors ← (report.errors.map FieldError.toValue).mapM FieldError.ofValue
    let fields ← FieldOutcome.ofEntries (← entriesOf (.object (Keyed.mapValues FieldOutcome.toValue report.fields)))
    let computed ← ((Value.object (Keyed.mapValues Computed.toValue report.computed)).orElse (.object [])).toFields
    let tally? ← if stats.truthy then (Tally.ofValue stats).map some else pure none
    return { report with errors, fields, tally?, computed := Keyed.mapValues Computed.plain computed }) = _
  rw [errors, entries, results]
  show (FieldOutcome.ofEntries _ >>= _) = _
  have plain : Keyed.mapValues Computed.plain (Keyed.mapValues Computed.toValue report.computed) =
      Keyed.mapValues Computed.plainly report.computed := List.map_map ..
  rw [fields, plainly, ← plain]
  unfold stats
  cases report.tally? <;> rfl

/-- What may be done to a report. -/
inductive Step where
  | addError (error : FieldError)
  | addErrors (errors : List FieldError)
  | setValid (field : Value)
  | setSkipped (field reason : Value)
  | addComputed (name : Value) (result : Computed)
  | merge (other : Report)
  | recount (change : Option Tally → Option Tally)

/-- A report with a change that is made as a whole or not at all. -/
def changed (report : Report) : Except Fault Report → Except Fault Unit × Report
  | .ok later => (.ok (), later)
  | .error fault => (.error fault, report)

def take (report : Report) : Step → Except Fault Unit × Report
  | .addError error => report.addError error
  | .addErrors errors => report.addErrors errors
  | .setValid field => report.changed (report.setValid field)
  | .setSkipped field reason => report.changed (report.setSkipped field reason)
  | .addComputed name result => report.changed (name.asKey.map (report.addComputed · result))
  | .merge other => (.ok (), report.merge other)
  | .recount change => (.ok (), { report with tally? := change report.tally? })

/-- A report after some steps; one that ends in a fault is followed by the next one all the same. -/
def after (report : Report) (steps : List Step) : Report := steps.foldl (fun report step => (report.take step).2) report

section Plainly

variable (report : Report)

theorem addError_plainly (error : FieldError) :
    report.plainly.addError error = ((report.addError error).1, (report.addError error).2.plainly) := by
  unfold addError
  cases error.field.asKey <;> rfl

theorem addErrors_plainly (errors : List FieldError) :
    report.plainly.addErrors errors = ((report.addErrors errors).1, (report.addErrors errors).2.plainly) := by
  induction errors generalizing report with
  | nil => rfl
  | cons error errors ih =>
    rw [addErrors, addErrors, addError_plainly]
    rcases report.addError error with ⟨_ | _, later⟩
    · rfl
    · exact ih later

theorem setValid_plainly (field : Value) : report.plainly.setValid field = (report.setValid field).map plainly := by
  unfold setValid
  cases field.asKey <;> rfl

theorem setSkipped_plainly (field reason : Value) :
    report.plainly.setSkipped field reason = (report.setSkipped field reason).map plainly := by
  unfold setSkipped
  cases field.asKey <;> rfl

theorem addComputed_plainly (key : Scalar) (result : Computed) :
    (report.plainly.addComputed key result).plainly = (report.addComputed key result).plainly := by
  simp only [plainly, addComputed, Keyed.mapValues_insert, mapValues_plainly]

theorem merge_plainly (other : Report) : (report.plainly.merge other).plainly = (report.merge other).plainly := by
  simp only [plainly, merge, Keyed.mapValues_merge, mapValues_plainly]

theorem changed_plainly (change : Except Fault Report) :
    report.plainly.changed (change.map plainly) = ((report.changed change).1, (report.changed change).2.plainly) := by
  cases change <;> rfl

/-- A step ends in the same way whether results are plain or not, and leaves behind what is the same but for that. -/
theorem take_plainly (step : Step) :
    (report.plainly.take step).1 = (report.take step).1 ∧
      (report.plainly.take step).2.plainly = (report.take step).2.plainly := by
  cases step with
  | addError error =>
    rw [take, take, addError_plainly]
    exact ⟨rfl, plainly_plainly _⟩
  | addErrors errors =>
    rw [take, take, addErrors_plainly]
    exact ⟨rfl, plainly_plainly _⟩
  | setValid field =>
    rw [take, take, setValid_plainly, changed_plainly]
    exact ⟨rfl, plainly_plainly _⟩
  | setSkipped field reason =>
    rw [take, take, setSkipped_plainly, changed_plainly]
    exact ⟨rfl, plainly_plainly _⟩
  | addComputed name result =>
    rw [take, take]
    cases name.asKey with
    | error fault => exact ⟨rfl, plainly_plainly report⟩
    | ok key => exact ⟨rfl, addComputed_plainly report key result⟩
  | merge other => exact ⟨rfl, merge_plainly report other⟩
  | recount change => exact ⟨rfl, plainly_plainly { report with tally? := change report.tally? }⟩

end Plainly

variable {report other : Report} (same : other.plainly = report.plainly)

include same

/-- Reports that are the same but for what their results are made of stay so, and steps end for both in the same way. -/
theorem take_congr (step : Step) :
    (other.take step).1 = (report.take step).1 ∧ (other.take step).2.plainly = (report.take step).2.plainly := by
  obtain ⟨ended, left⟩ := other.take_plainly step
  obtain ⟨ended', left'⟩ := report.take_plainly step
  rw [same] at ended left
  exact ⟨ended.symm.trans ended', left.symm.trans left'⟩

theorem after_congr (steps : List Step) : (other.after steps).plainly = (report.after steps).plainly := by
  induction steps generalizing report other with
  | nil => exact same
  | cons step steps ih => exact ih (take_congr same step).2

theorem toValue_congr : other.toValue = report.toValue := by rw [← toValue_plainly, same, toValue_plainly]

/-- What is asked about fields is not about results. -/
theorem answers_congr (field : Value) : other.errorsOf field = report.errorsOf field ∧
    other.isValid field = report.isValid field ∧ other.isSkipped field = report.isSkipped field := by
  have errors : other.errors = report.errors := (congrArg Report.errors same :)
  have fields : other.fields = report.fields := (congrArg Report.fields same :)
  refine ⟨?_, ?_, ?_⟩
  · rw [errorsOf, errorsOf, errors]
  · rw [isValid, isValid, outcome?, outcome?, fields]
  · rw [isSkipped, isSkipped, outcome?, outcome?, fields]

omit same

/-- A report may be written as a document and read back at any time: its document is the same again, down to the order
of keys. Whatever is done to both from then on, each step ends for both in the same way, and both have the same document
and give the same answers about each field. -/
theorem reload_keeps (report : Report) :
    ∃ loaded, ofValue report.toValue = .ok loaded ∧ loaded.toValue = report.toValue ∧
      Keyed.keys loaded.fields = Keyed.keys report.fields ∧ Keyed.keys loaded.computed = Keyed.keys report.computed ∧
      ∀ steps, (loaded.after steps).toValue = (report.after steps).toValue ∧
        (∀ step, ((loaded.after steps).take step).1 = ((report.after steps).take step).1) ∧
        ∀ field, (loaded.after steps).errorsOf field = (report.after steps).errorsOf field ∧
          (loaded.after steps).isValid field = (report.after steps).isValid field ∧
          (loaded.after steps).isSkipped field = (report.after steps).isSkipped field := by
  refine ⟨report.plainly, ofValue_toValue report, toValue_plainly report, rfl, Keyed.keys_mapValues _ _, fun steps => ?_⟩
  have same := after_congr (plainly_plainly report) steps
  exact ⟨toValue_congr same, fun step => (take_congr same step).1, answers_congr same⟩

end Report

end FormRules

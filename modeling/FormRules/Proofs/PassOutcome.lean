import FormRules.Proofs.PassConsistency
import FormRules.Proofs.ReportMerging

/-! A pass is all or nothing: its report is that of the form with what is said about the pass, or it has one
error for the form as a whole and nothing else. A fault in the graph, in an item, a rule or a score leaves
nothing behind that was found before it. -/

namespace FormRules

theorem Report.Consistent.wellFormed {report : Report} (consistent : report.Consistent)
    (computed : report.computed.Distinct) : report.WellFormed :=
  ⟨⟨_, consistent.valid⟩, fun entry member => ⟨_, consistent.judged entry member⟩, consistent.distinct, computed⟩

namespace Pass

variable {σ : Type} (backend : Backend σ)

/-- Nothing is computed but the scores of the form. -/
theorem gathers_uncomputed (source : Source) : Gathers source fun _ report => report.computed = [] where
  empty := rfl
  field := by
    intro piece report filed
    cases filed with
    | silent => rfl
    | skipped => rfl
    | judged name errors told place added => split <;> exact added.computed
  merge := by
    intro parts more report later first second
    rw [Report.merge, first, second]
    rfl

/-- The report of a form has no result twice. -/
theorem checkForm_computed (context : Context) :
    Leads (fun _ => True) (checkForm backend context) fun report _ => report.computed.Distinct := by
  intro progress start report later run
  obtain ⟨_, gathered, _, none, all, rfl⟩ := checkForm_gathers (gathers_uncomputed _) progress start report later run
  rw [FormScores.addTo_eq, none]
  exact (Keyed.Distinct.merge .nil _).merge _

end Pass

namespace Validator

variable {σ : Type}

/-- A report with one error for the form as a whole: no field has an outcome, nothing is counted, computed or
said about the pass. -/
def systemReport (message : String) : Report :=
  let error : FieldError := { field := .text "_global", message := .text message, rule := .text "system_error" }
  { valid := .bool false, errors := [error], fields := [(.text "_global", { valid := .bool false, errors := [error] })] }

def systemMessage (fault : Fault) : String :=
  if fault.message.isEmpty then "Unknown validation error" else fault.message

theorem brokenOff_eq (fault : Fault) : brokenOff fault = systemReport (systemMessage fault) := by
  have said : (Value.text fault.message).orElse (.text "Unknown validation error") = .text (systemMessage fault) := by
    unfold Value.orElse systemMessage
    by_cases silent : fault.message.isEmpty = true
    · simp [Value.truthy, silent]
    · simp [Value.truthy, silent]
  rw [brokenOff, systemError, said]
  rfl

/-- A pass is completed, or broken off by a fault of the graph or of the form. -/
theorem validate_cases (backend : Backend σ) (settings : Settings) (submission : Submission) (state : σ) :
    let report := (validate backend settings submission state).1
    let graph := Dependency.Graph.ofForm submission.form
    let run := (Pass.checkForm backend (submission.context settings)).run.run { backend := state }
    (∃ drawn whole last, graph = .ok drawn ∧ run = (.ok whole, last) ∧
      report = completed settings submission.now drawn whole) ∨
    ∃ fault, (graph = .error fault ∨ (∃ drawn, graph = .ok drawn) ∧ run.1 = .error fault) ∧
      report = brokenOff fault := by
  intro report graph run
  cases drawn : Dependency.Graph.ofForm submission.form with
  | error fault => exact .inr ⟨fault, .inl drawn, by simp only [report, validate, drawn]⟩
  | ok graph' =>
    rcases ended : (Pass.checkForm backend (submission.context settings)).run.run { backend := state } with
      ⟨fault | whole, last⟩
    · have broken : report = brokenOff fault := by simp only [report, validate, drawn, ended]
      exact .inr ⟨fault, .inr ⟨⟨graph', drawn⟩, congrArg Prod.fst ended⟩, broken⟩
    · exact .inl ⟨graph', whole, last, drawn, ended, by simp only [report, validate, drawn, ended]⟩

/-- A pass gives the whole report of the form, with what is said about the pass, or a report with one error for
the form as a whole: the latter just if the graph or the form ends in a fault, of which it has the message. -/
theorem validate_whole (backend : Backend σ) (settings : Settings) (submission : Submission) (state : σ) :
    let report := (validate backend settings submission state).1
    let graph := Dependency.Graph.ofForm submission.form
    let checked := ((Pass.checkForm backend (submission.context settings)).run.run { backend := state }).1
    (∃ drawn whole, graph = .ok drawn ∧ checked = .ok whole ∧
      report = { whole with
        metadata := metadata settings submission.now
        graph := if settings.devtools then drawn.toValue else .null }) ∨
    ∃ fault, (graph = .error fault ∨ (∃ drawn, graph = .ok drawn) ∧ checked = .error fault) ∧
      report = systemReport (systemMessage fault) := by
  intro report graph checked
  obtain ⟨drawn, whole, last, known, run, finished⟩ | ⟨fault, cause, broken⟩ :=
    validate_cases backend settings submission state
  · have consistent := Pass.checkForm_consistent backend _ _ trivial whole last run
    have distinct := Pass.checkForm_computed backend _ _ trivial whole last run
    refine .inl ⟨drawn, whole, known, congrArg Prod.fst run, finished.trans ?_⟩
    rw [completed, Report.nothing_merge (consistent.wellFormed distinct)]
  · exact .inr ⟨fault, cause, broken.trans (brokenOff_eq fault)⟩

end Validator

end FormRules

import FormRules.Proofs.FieldReports
import FormRules.Proofs.ReportConsistency
import FormRules.Validator

/-! Every pass ends with a report whose two copies of the errors agree, and so does everything that is
read off it. Fields that share a path, containers and broken passes are no exception. -/

namespace FormRules

namespace Report

variable {report later : Report} {name : String}

theorem Consistent.noting (consistent : report.Consistent) {error : FieldError} (named : error.field = .text name) :
    (report.noting name error).Consistent := by
  obtain ⟨later, added, kept, _⟩ := consistent.addError named
  rw [addError_named named] at added
  cases added
  exact kept

/-- Told errors are noted one after the other. -/
theorem foldl_noting (name : String) (errors : List FieldError) (report : Report) :
    let last := errors.foldl (noting · name) report
    last.valid = (if errors.isEmpty then report.valid else .bool false) ∧ last.errors = report.errors ++ errors ∧
      last.fields = errors.foldl (addToField · (.text name)) report.fields := by
  induction errors generalizing report with
  | nil => exact ⟨rfl, (List.append_nil _).symm, rfl⟩
  | cons error errors ih =>
    obtain ⟨valid, listed, fields⟩ := ih (report.noting name error)
    refine ⟨?_, ?_, fields⟩
    · exact valid.trans (ite_self _)
    · exact listed.trans (List.append_assoc ..)

theorem Told.consistent {pending : Int} {errors : List FieldError} (told : report.Told name pending errors later)
    (consistent : report.Consistent) : later.Consistent := by
  have kept : (errors.foldl (noting · name) report).Consistent := by
    have named := told.named
    clear told
    induction errors generalizing report with
    | nil => exact consistent
    | cons error errors ih =>
      obtain ⟨first, rest⟩ := List.forall_mem_cons.mp named
      exact ih (consistent.noting first) rest
  obtain ⟨valid, listed, fields⟩ := foldl_noting name errors report
  exact kept.of_eq (told.valid.trans valid.symm) (told.errors.trans listed.symm) (told.fields.trans fields.symm)

end Report

theorem Item.Piece.Filed.consistent {source : Source} {piece : Item.Piece} {report : Report}
    (filed : piece.Filed source report) : report.Consistent := by
  cases filed with
  | silent => exact Report.consistent_counting
  | skipped key reason rules =>
    have skipped : Report.counting.setSkipped (.scalar key) (.text reason) = .ok _ := rfl
    exact (Report.consistent_counting.setSkipped rfl skipped).of_eq rfl rfl rfl
  | judged name errors told place added =>
    have consistent := added.consistent Report.consistent_counting
    cases errors with
    | nil => exact consistent.setValid added.errors Report.setValid_text
    | cons error errors => exact consistent

namespace Pass

variable {σ : Type} (backend : Backend σ) (context : Context)

theorem gathers_consistent (source : Source) : Gathers source fun _ report => report.Consistent :=
  ⟨Report.consistent_counting, fun filed => filed.consistent, fun first second => first.merge second⟩

theorem checkForm_consistent :
    Leads (fun _ => True) (checkForm backend context) fun report _ => report.Consistent := by
  intro progress start report later run
  obtain ⟨_, gathered, _, kept, all, rfl⟩ := checkForm_gathers (gathers_consistent _) progress start report later run
  rw [FormScores.addTo_eq]
  exact kept.of_eq rfl rfl rfl

end Pass

namespace Validator

variable {σ : Type}

theorem consistent_brokenOff (fault : Fault) : (brokenOff fault).Consistent := by
  obtain ⟨later, recorded, kept, _⟩ := Report.consistent_empty.addError (rfl : (systemError fault).field = _)
  rw [brokenOff, recorded]
  exact kept

theorem consistent_validate (backend : Backend σ) (settings : Settings) (submission : Submission) (state : σ) :
    (validate backend settings submission state).1.Consistent := by
  unfold validate
  split
  next fault _ => exact consistent_brokenOff fault
  next graph _ =>
    simp only
    split
    next fault _ _ => exact consistent_brokenOff fault
    next checked progress run =>
      have kept := Pass.checkForm_consistent backend _ _ trivial checked progress run
      exact (Report.consistent_empty.merge kept).of_eq rfl rfl rfl

/-- What is read off a consistent report about one field are the errors of the field. -/
theorem onField_of_consistent {report : Report} (consistent : report.Consistent) (key : Scalar) :
    ∃ only, onField report (.scalar key) = .ok only ∧ only.Consistent ∧
      only.errors = report.errorsOf (.scalar key) := by
  have filed := consistent.filed key
  have known : report.outcome? (.scalar key) = .ok (Keyed.find? report.fields key) := rfl
  unfold onField
  rw [known]
  unfold Report.filedUnder at filed
  cases found : Keyed.find? report.fields key with
  | none =>
    rw [found] at filed
    exact ⟨{}, rfl, Report.consistent_empty, filed⟩
  | some outcome =>
    rw [found] at filed
    have listed : outcome.errors = report.errorsOf (.scalar key) := filed
    obtain ⟨held, inside, _⟩ := Keyed.exists_mem_of_find? found
    have judged : outcome.valid = .bool outcome.errors.isEmpty := consistent.judged _ inside
    have named : ∀ error ∈ outcome.errors, ∃ name, error.field = .text name := by
      intro error member
      rw [listed] at member
      exact consistent.named error (Report.mem_errorsOf.mp member).1
    obtain ⟨only, added, kept, errors⟩ := Report.consistent_empty.addErrors outcome.errors named
    have read : (if outcome.valid.truthy then .ok {} else
        (do (({} : Report).addErrors outcome.errors).1; return (({} : Report).addErrors outcome.errors).2) :
          Except Fault Report) = .ok only := by
      rw [judged, added]
      cases empty : outcome.errors with
      | nil =>
        rw [empty] at added
        cases added
        rfl
      | cons error rest => rfl
    exact ⟨only, read, kept, errors.trans listed⟩

/-- Whatever the data, the form and the backend, the report of a pass agrees with itself: it is valid
just if it lists no errors, each field has the listed errors that name it, is valid just if there are
none, and shows the same on its own. -/
theorem validate_agrees (backend : Backend σ) (settings : Settings) (submission : Submission) (state : σ) :
    let report := (validate backend settings submission state).1
    report.valid = .bool report.errors.isEmpty ∧
    ∀ key : Scalar,
      let errors := report.errorsOf (.scalar key)
      (∃ outcome?, report.outcome? (.scalar key) = .ok outcome? ∧
        (outcome?.map (·.errors)).getD [] = errors) ∧
      report.isValid (.scalar key) = .ok (.bool errors.isEmpty) ∧
      ∃ only, onField report (.scalar key) = .ok only ∧ only.errors = errors ∧
        only.valid = .bool errors.isEmpty := by
  intro report
  have consistent : report.Consistent := consistent_validate backend settings submission state
  refine ⟨consistent.valid, fun key => ⟨⟨_, rfl, consistent.filed key⟩, consistent.isValid key, ?_⟩⟩
  obtain ⟨only, read, kept, errors⟩ := onField_of_consistent consistent key
  exact ⟨only, read, errors, by rw [kept.valid, errors]⟩

end Validator

end FormRules

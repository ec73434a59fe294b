import FormRules.Proofs.KeyedJoins
import FormRules.Report.Basic

/-! A report keeps each error twice: in its list, and with its field. Both copies stay in step under
every operation of a pass, whatever fields share a path, and validity follows from them. -/

namespace FormRules

/-- The errors that are kept under a key. -/
def Report.filedUnder (fields : Keyed FieldOutcome) (key : Scalar) : List FieldError :=
  ((Keyed.find? fields key).map (·.errors)).getD []

/-- An outcome is valid just if it has no errors. -/
def FieldOutcome.Judged (outcome : FieldOutcome) : Prop := outcome.valid = .bool outcome.errors.isEmpty

/-- The errors of a report are listed once more with their fields, and decide what is valid. -/
structure Report.Consistent (report : Report) : Prop where
  valid : report.valid = .bool report.errors.isEmpty
  named : ∀ error ∈ report.errors, ∃ name, error.field = .text name
  judged : ∀ entry ∈ report.fields, entry.2.Judged
  distinct : report.fields.Distinct
  filed : ∀ key, filedUnder report.fields key = report.errorsOf (.scalar key)

namespace Report

variable {report later : Report}

theorem filedUnder_cons (key other : Scalar) (outcome : FieldOutcome) (rest : Keyed FieldOutcome) :
    filedUnder ((key, outcome) :: rest) other =
      if key.coincides other then outcome.errors else filedUnder rest other := by
  unfold filedUnder
  rw [Keyed.find?_cons]
  split <;> rfl

theorem filedUnder_insert (fields : Keyed FieldOutcome) (key other : Scalar) (outcome : FieldOutcome) :
    filedUnder (Keyed.insert fields key outcome) other =
      if key.coincides other then outcome.errors else filedUnder fields other := by
  unfold filedUnder
  rw [Keyed.find?_insert]
  split <;> rfl

theorem filedUnder_congr (fields : Keyed FieldOutcome) {key other : Scalar} (same : key.coincides other = true) :
    filedUnder fields key = filedUnder fields other := by
  induction fields with
  | nil => rfl
  | cons entry rest ih =>
    rw [filedUnder_cons, filedUnder_cons, Scalar.coincides_comm entry.1, Scalar.coincides_congr same,
      Scalar.coincides_comm other, ih]

private theorem getD_errors (fields : Keyed FieldOutcome) (key : Scalar) :
    ((Keyed.find? fields key).getD {}).errors = filedUnder fields key := by
  unfold filedUnder
  cases Keyed.find? fields key <;> rfl

theorem mem_errorsOf {error : FieldError} {field : Value} :
    error ∈ report.errorsOf field ↔ error ∈ report.errors ∧ error.field.same field = true :=
  List.mem_filter

theorem consistent_empty : ({} : Report).Consistent where
  valid := rfl
  named := by simp
  judged := by simp
  distinct := List.Pairwise.nil
  filed := fun _ => rfl

/-- Counting rules, computing results and describing the pass touch neither copy of the errors. -/
theorem Consistent.of_eq (consistent : report.Consistent) (valid : later.valid = report.valid)
    (errors : later.errors = report.errors) (fields : later.fields = report.fields) :
    later.Consistent where
  valid := by rw [valid, errors, consistent.valid]
  named := by rw [errors]; exact consistent.named
  judged := by rw [fields]; exact consistent.judged
  distinct := by rw [fields]; exact consistent.distinct
  filed := fun key => by rw [fields, consistent.filed, errorsOf, errorsOf, errors]

theorem consistent_counting : counting.Consistent := consistent_empty.of_eq rfl rfl rfl

/-- Recording an error adds it to the list and files it with its field, which exists from then on. -/
theorem Consistent.addError (consistent : report.Consistent) {error : FieldError} {name : String}
    (named : error.field = .text name) :
    ∃ later, report.addError error = (.ok (), later) ∧ later.Consistent ∧
      later.errors = report.errors ++ [error] := by
  refine ⟨{ report with
      valid := .bool false, errors := report.errors ++ [error]
      fields := addToField report.fields (.text name) error }, ?_, ?_, rfl⟩
  · simp only [Report.addError, named, Value.asKey]
  · constructor
    · simp
    · intro other member
      rcases List.mem_append.mp member with before | last
      · exact consistent.named other before
      · rw [List.mem_singleton.mp last]
        exact ⟨name, named⟩
    · intro entry member
      rcases Keyed.mem_insert member with before | added
      · exact consistent.judged entry before
      · rw [FieldOutcome.Judged, added]
        simp
    · exact consistent.distinct.insert _ _
    · intro other
      simp only [addToField, filedUnder_insert, getD_errors, errorsOf, List.filter_append,
        List.filter_cons, List.filter_nil, named, Value.same, ← Scalar.coincides_of_text]
      split
      next same =>
        rw [filedUnder_congr _ same, consistent.filed]
        rfl
      next =>
        rw [consistent.filed, List.append_nil]
        rfl

theorem Consistent.addErrors (consistent : report.Consistent) (errors : List FieldError)
    (named : ∀ error ∈ errors, ∃ name, error.field = .text name) :
    ∃ later, report.addErrors errors = (.ok (), later) ∧ later.Consistent ∧
      later.errors = report.errors ++ errors := by
  induction errors generalizing report with
  | nil => exact ⟨report, rfl, consistent, (List.append_nil _).symm⟩
  | cons error errors ih =>
    obtain ⟨_, own⟩ := named error List.mem_cons_self
    obtain ⟨next, added, kept, listed⟩ := consistent.addError own
    obtain ⟨later, rest, kept, all⟩ := ih kept fun other member => named other (List.mem_cons_of_mem _ member)
    refine ⟨later, ?_, kept, ?_⟩
    · simp only [Report.addErrors, added, rest]
    · rw [all, listed, List.append_assoc]
      rfl

/-- A field without errors may be marked as valid. -/
theorem Consistent.setValid (consistent : report.Consistent) {field : Value}
    (clean : report.errors = []) (set : report.setValid field = .ok later) : later.Consistent := by
  simp only [Report.setValid, bind, Except.bind, pure, Except.pure] at set
  split at set
  · cases set
  next key named =>
    cases set
    have none (other : Scalar) : filedUnder report.fields other = [] := by
      rw [consistent.filed, errorsOf, clean]
      rfl
    constructor
    · exact consistent.valid
    · exact consistent.named
    · intro entry member
      rcases Keyed.mem_insert member with before | added
      · exact consistent.judged entry before
      · rw [FieldOutcome.Judged, added]
        simp [getD_errors, none]
    · exact consistent.distinct.insert _ _
    · intro other
      rw [filedUnder_insert, getD_errors, none, none, errorsOf, clean]
      exact ite_self _

/-- A field without errors may be marked as skipped. -/
theorem Consistent.setSkipped (consistent : report.Consistent) {field reason : Value}
    (clean : report.errors = []) (set : report.setSkipped field reason = .ok later) : later.Consistent := by
  simp only [Report.setSkipped, bind, Except.bind, pure, Except.pure] at set
  split at set
  · cases set
  next key named =>
    cases set
    constructor
    · exact consistent.valid
    · exact consistent.named
    · intro entry member
      rcases Keyed.mem_insert member with before | added
      · exact consistent.judged entry before
      · rw [FieldOutcome.Judged, added]
        rfl
    · exact consistent.distinct.insert _ _
    · intro other
      rw [filedUnder_insert, consistent.filed, errorsOf, clean]
      exact ite_self _

theorem bothValid_isEmpty (first second : List FieldError) :
    bothValid (.bool first.isEmpty) (.bool second.isEmpty) = .bool (first ++ second).isEmpty := by
  cases first <;> cases second <;> rfl

theorem judged_mergeOutcome {outcome other : FieldOutcome} (first : outcome.Judged) (second : other.Judged) :
    (mergeOutcome outcome other).Judged := by
  unfold FieldOutcome.Judged at first second ⊢
  simp only [mergeOutcome, first, second, bothValid_isEmpty]

theorem mergeFields_eq_joinAll (fields more : Keyed FieldOutcome) :
    mergeFields fields more = Keyed.joinAll mergeOutcome fields more := by
  induction more generalizing fields with
  | nil => rfl
  | cons entry rest ih =>
    rw [mergeFields, Keyed.joinAll_cons, ← ih, Keyed.joinAt]
    cases Keyed.find? fields entry.1 <;> rfl

theorem find?_mergeFields {fields more : Keyed FieldOutcome} (distinct : more.Distinct) (key : Scalar) :
    Keyed.find? (mergeFields fields more) key =
      Option.merge mergeOutcome (Keyed.find? fields key) (Keyed.find? more key) := by
  rw [mergeFields_eq_joinAll, Keyed.find?_joinAll mergeOutcome distinct]

theorem filedUnder_mergeFields {fields more : Keyed FieldOutcome} (distinct : more.Distinct) (key : Scalar) :
    filedUnder (mergeFields fields more) key = filedUnder fields key ++ filedUnder more key := by
  unfold filedUnder
  rw [find?_mergeFields distinct]
  cases Keyed.find? fields key with
  | none => cases Keyed.find? more key <;> rfl
  | some outcome =>
    cases Keyed.find? more key with
    | none => exact (List.append_nil _).symm
    | some later => rfl

/-- Folding one report into another keeps both copies in step, also where both know a field. -/
theorem Consistent.merge (first : report.Consistent) (second : later.Consistent) :
    (report.merge later).Consistent where
  valid := by simp only [Report.merge, first.valid, second.valid, bothValid_isEmpty]
  named := by
    intro error member
    exact (List.mem_append.mp member).elim (first.named error) (second.named error)
  judged := by
    simp only [Report.merge, mergeFields_eq_joinAll]
    exact Keyed.forall_mem_joinAll mergeOutcome (fun _ _ => judged_mergeOutcome) first.judged second.judged
  distinct := by
    simp only [Report.merge, mergeFields_eq_joinAll]
    exact first.distinct.joinAll mergeOutcome _
  filed := fun key => by
    simp only [Report.merge, filedUnder_mergeFields second.distinct, first.filed, second.filed,
      errorsOf, List.filter_append]

/-- A consistent report answers for the validity of a field by the errors of the field. -/
theorem Consistent.isValid (consistent : report.Consistent) (key : Scalar) :
    report.isValid (.scalar key) = .ok (.bool (report.errorsOf (.scalar key)).isEmpty) := by
  have filed := consistent.filed key
  unfold filedUnder at filed
  simp only [Report.isValid, outcome?, Value.asKey, bind, Except.bind, pure, Except.pure]
  cases found : Keyed.find? report.fields key with
  | none =>
    rw [found] at filed
    rw [← filed]
    rfl
  | some outcome =>
    rw [found] at filed
    obtain ⟨held, inside, _⟩ := Keyed.exists_mem_of_find? found
    rw [← filed]
    exact congrArg Except.ok (consistent.judged _ inside)

end Report

end FormRules

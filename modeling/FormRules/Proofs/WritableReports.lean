import FormRules.Proofs.FieldReports
import FormRules.Proofs.ReportMerging
import FormRules.Proofs.WritableScores
import FormRules.Report.Document

/-! Reports that can be written. They stay so as errors, outcomes and results come in that can be written, under names
that can be. -/

namespace FormRules

theorem FieldError.isWritable_toValue {error : FieldError} : error.toValue.isWritable = true ↔
    error.field.isWritable = true ∧ error.message.isWritable = true ∧ error.rule.isWritable = true ∧
      error.params.isWritable = true ∧ error.path.isWritable = true := by
  unfold toValue
  simp only [Value.isWritable_ofFields, List.all_cons, List.all_nil, Bool.and_eq_true, Bool.and_true]

theorem FieldOutcome.isWritable_toValue {outcome : FieldOutcome} : outcome.toValue.isWritable = true ↔
    outcome.valid.isWritable = true ∧ (∀ error ∈ outcome.errors, error.toValue.isWritable = true) ∧
      outcome.skipped.isWritable = true ∧ outcome.reason.isWritable = true := by
  unfold toValue
  simp only [Value.isWritable_ofFields, List.all_cons, List.all_nil, Bool.and_eq_true, Bool.and_true,
    Value.isWritable_list_map]

namespace Report

/-- A report all of whose parts can be written. -/
structure Writable (report : Report) : Prop where
  valid : report.valid.isWritable = true
  errors : ∀ error ∈ report.errors, error.toValue.isWritable = true
  fields : report.fields.Writable (·.toValue.isWritable = true)
  computed : report.computed.Writable (·.toValue.isWritable = true)
  metadata : report.metadata.isWritable = true
  graph : report.graph.isWritable = true

theorem bothValid_isWritable {flag : Value} (writable : flag.isWritable = true) (other : Value) :
    (bothValid flag other).isWritable = true := by
  unfold bothValid
  split
  · exact writable
  · rfl

theorem writable_empty : ({} : Report).Writable := ⟨rfl, List.forall_mem_nil _, .nil, .nil, rfl, rfl⟩

theorem writable_counting : counting.Writable := ⟨rfl, List.forall_mem_nil _, .nil, .nil, rfl, rfl⟩

namespace Writable

variable {report later : Report} (writable : report.Writable)

include writable

theorem toValue : report.toValue.isWritable = true := by
  have counts : ((report.tally?.map Tally.toValue).getD .null).isWritable = true := by cases report.tally? <;> rfl
  unfold Report.toValue
  simp only [Value.isWritable_ofFields, List.all_cons, List.all_nil, Bool.and_eq_true, Bool.and_true]
  exact ⟨writable.valid, Value.isWritable_list_map.mpr writable.errors, Value.isWritable_object_map writable.fields,
    Value.isWritable_object_map writable.computed, writable.metadata, counts, writable.graph⟩

theorem setTally (tally? : Option Tally) : ({ report with tally? } : Report).Writable :=
  ⟨writable.valid, writable.errors, writable.fields, writable.computed, writable.metadata, writable.graph⟩

/-- The outcome of a field, or that of one of which nothing is known yet. -/
theorem outcome (key : Scalar) : ((Keyed.find? report.fields key).getD {}).toValue.isWritable = true := by
  cases found : Keyed.find? report.fields key with
  | none => rfl
  | some outcome => exact writable.fields.of_find? found

theorem noting {error : FieldError} (told : error.toValue.isWritable = true) (name : String) :
    (report.noting name error).Writable := by
  have added {errors : List FieldError} (before : ∀ error ∈ errors, error.toValue.isWritable = true) :
      ∀ other ∈ errors ++ [error], other.toValue.isWritable = true :=
    List.forall_mem_append.mpr ⟨before, List.forall_mem_singleton.mpr told⟩
  obtain ⟨_, errors, skipped, reason⟩ := FieldOutcome.isWritable_toValue.mp (writable.outcome (.text name))
  exact ⟨rfl, added writable.errors,
    writable.fields.insert rfl (FieldOutcome.isWritable_toValue.mpr ⟨rfl, added errors, skipped, reason⟩),
    writable.computed, writable.metadata, writable.graph⟩

theorem clearing (name : String) : (report.clearing name).Writable := by
  obtain ⟨_, errors, _, reason⟩ := FieldOutcome.isWritable_toValue.mp (writable.outcome (.text name))
  exact ⟨writable.valid, writable.errors,
    writable.fields.insert rfl (FieldOutcome.isWritable_toValue.mpr ⟨rfl, errors, rfl, reason⟩),
    writable.computed, writable.metadata, writable.graph⟩

theorem setSkipped (name reason : String) : Ensures (report.setSkipped (.text name) (.text reason)) Report.Writable :=
  .ok ⟨writable.valid, writable.errors, writable.fields.insert rfl rfl, writable.computed, writable.metadata,
    writable.graph⟩

theorem merge (other : later.Writable) : (report.merge later).Writable where
  valid := bothValid_isWritable writable.valid later.valid
  errors := List.forall_mem_append.mpr ⟨writable.errors, other.errors⟩
  fields := by
    show (mergeFields report.fields later.fields).Writable _
    rw [mergeFields_eq_joinAll]
    refine Keyed.Writable.joinAll (fun outcome more before after => ?_) writable.fields other.fields
    obtain ⟨valid, errors, skipped, reason⟩ := FieldOutcome.isWritable_toValue.mp before
    obtain ⟨_, others, _⟩ := FieldOutcome.isWritable_toValue.mp after
    exact FieldOutcome.isWritable_toValue.mpr
      ⟨bothValid_isWritable valid more.valid, List.forall_mem_append.mpr ⟨errors, others⟩, skipped, reason⟩
  computed := writable.computed.merge other.computed
  metadata := writable.metadata
  graph := writable.graph

end Writable

end Report

namespace FormScores

/-- Scores and sums that can be written. -/
structure Writable (all : FormScores) : Prop where
  scores : all.scores.Writable Scoring.Score.Writable
  rollups : all.rollups.Writable Scoring.Rollup.Writable

theorem Writable.addTo {all : FormScores} (writable : all.Writable) {report : Report} (before : report.Writable) :
    (all.addTo report).Writable := by
  have scores := writable.scores.weaken fun _ => Scoring.Score.Writable.toValue
  have rollups := writable.rollups.weaken fun _ => Scoring.Rollup.Writable.toValue
  rw [addTo_eq]
  exact ⟨before.valid, before.errors, before.fields, (before.computed.merge rollups.map).merge scores.map,
    before.metadata, before.graph⟩

end FormScores

end FormRules

import FormRules.Proofs.Agreement
import FormRules.Proofs.ReportConsistency

/-! Reports folded into one another. How they are grouped makes no difference, and an empty report none at all; their
order decides no more than the order of what is listed, the marks of what was skipped, and the results of computation. -/

namespace FormRules

theorem Tally.nothing_add (tally : Tally) : ({} : Tally).add tally = tally := by simp [Tally.add]

namespace Report

theorem bothValid_bool (flag other : Bool) : bothValid (.bool flag) (.bool other) = .bool (flag && other) := by
  cases flag <;> cases other <;> rfl

theorem bothValid_assoc (first second third : Value) :
    bothValid (bothValid first second) third = bothValid first (bothValid second third) := by
  unfold bothValid
  by_cases last : third.truthy = true
  · rw [if_pos last, if_pos last]
  · rw [if_neg last, if_neg last]
    rfl

theorem mergeOutcome_assoc (first second third : FieldOutcome) :
    mergeOutcome (mergeOutcome first second) third = mergeOutcome first (mergeOutcome second third) := by
  simp only [mergeOutcome, bothValid_assoc, List.append_assoc]

theorem mergeTally_assoc (first? second? third? : Option Tally) :
    mergeTally (mergeTally first? second?) third? = mergeTally first? (mergeTally second? third?) := by
  cases first? <;> cases second? <;> cases third? <;>
    simp [mergeTally, Tally.add_assoc, Tally.nothing_add]

theorem mergeTally_comm (first? second? : Option Tally) : mergeTally first? second? = mergeTally second? first? := by
  rcases first? with _ | first <;> rcases second? with _ | second
  · rfl
  · exact congrArg some second.nothing_add
  · exact congrArg some first.nothing_add.symm
  · exact congrArg some (first.add_comm second)

/-- A report as operations on reports make it: what says whether it is valid, or a field is, is a truth value, and
nothing is there twice under one key. -/
structure WellFormed (report : Report) : Prop where
  valid : ∃ flag, report.valid = .bool flag
  judged : ∀ entry ∈ report.fields, ∃ flag, entry.2.valid = .bool flag
  fields : report.fields.Distinct
  computed : report.computed.Distinct

variable {first second third : Report}

theorem WellFormed.valid_of_find? (formed : first.WellFormed) {key : Scalar} {outcome : FieldOutcome}
    (found : Keyed.find? first.fields key = some outcome) : ∃ flag, outcome.valid = .bool flag := by
  obtain ⟨_, inside, _⟩ := Keyed.exists_mem_of_find? found
  exact formed.judged _ inside

theorem wellFormed_empty : ({} : Report).WellFormed := ⟨⟨true, rfl⟩, List.forall_mem_nil _, .nil, .nil⟩

theorem WellFormed.insert (formed : first.WellFormed) (key : Scalar) {outcome : FieldOutcome}
    (known : ∃ flag, outcome.valid = .bool flag) :
    WellFormed { first with fields := Keyed.insert first.fields key outcome } where
  valid := formed.valid
  judged := by
    intro entry member
    rcases Keyed.mem_insert member with before | added
    · exact formed.judged entry before
    · exact added ▸ known
  fields := formed.fields.insert key outcome
  computed := formed.computed

theorem WellFormed.addError (formed : first.WellFormed) (error : FieldError) : (first.addError error).2.WellFormed := by
  unfold Report.addError
  split
  next key _ =>
    have filed : WellFormed { first with fields := addToField first.fields key error } :=
      formed.insert key ⟨false, rfl⟩
    exact ⟨⟨false, rfl⟩, filed.judged, filed.fields, formed.computed⟩
  next => exact ⟨⟨false, rfl⟩, formed.judged, formed.fields, formed.computed⟩

theorem WellFormed.setValid (formed : first.WellFormed) {field : Value} (set : first.setValid field = .ok second) :
    second.WellFormed := by
  obtain ⟨key, _, set⟩ := Fault.of_bind_ok set
  cases set
  exact formed.insert key ⟨true, rfl⟩

theorem WellFormed.setSkipped (formed : first.WellFormed) {field reason : Value}
    (set : first.setSkipped field reason = .ok second) : second.WellFormed := by
  obtain ⟨key, _, set⟩ := Fault.of_bind_ok set
  cases set
  exact formed.insert key ⟨true, rfl⟩

theorem WellFormed.addComputed (formed : first.WellFormed) (key : Scalar) (result : Computed) :
    (first.addComputed key result).WellFormed :=
  ⟨formed.valid, formed.judged, formed.fields, formed.computed.insert key result⟩

theorem WellFormed.merge (one : first.WellFormed) (other : second.WellFormed) : (first.merge second).WellFormed where
  valid := by
    obtain ⟨flag, known⟩ := one.valid
    obtain ⟨flag', known'⟩ := other.valid
    exact ⟨flag && flag', by rw [Report.merge, known, known', bothValid_bool]⟩
  judged := by
    have closed (outcome later : FieldOutcome) : (∃ flag, outcome.valid = .bool flag) →
        (∃ flag, later.valid = .bool flag) → ∃ flag, (mergeOutcome outcome later).valid = .bool flag := by
      rintro ⟨flag, known⟩ ⟨flag', known'⟩
      exact ⟨flag && flag', by rw [mergeOutcome, known, known', bothValid_bool]⟩
    simp only [Report.merge, mergeFields_eq_joinAll]
    exact Keyed.forall_mem_joinAll mergeOutcome closed one.judged other.judged
  fields := by
    simp only [Report.merge, mergeFields_eq_joinAll]
    exact Keyed.Distinct.joinAll mergeOutcome one.fields _
  computed := one.computed.merge _

theorem merge_assoc (fields : second.fields.Distinct) (computed : second.computed.Distinct) :
    (first.merge second).merge third = first.merge (second.merge third) := by
  have outcomes : mergeFields (mergeFields first.fields second.fields) third.fields =
      mergeFields first.fields (mergeFields second.fields third.fields) := by
    simp only [mergeFields_eq_joinAll]
    exact Keyed.joinAll_assoc mergeOutcome_assoc _ fields _
  have results : Keyed.merge (Keyed.merge first.computed second.computed) third.computed =
      Keyed.merge first.computed (Keyed.merge second.computed third.computed) := by
    simp only [Keyed.merge_eq_joinAll]
    exact Keyed.joinAll_assoc (fun _ _ _ => rfl) _ computed _
  simp only [Report.merge, bothValid_assoc, List.append_assoc, outcomes, results, mergeTally_assoc]

theorem merge_nothing (report : Report) : report.merge {} = report := by
  simp [Report.merge, bothValid, mergeFields, Keyed.merge, mergeTally, Value.truthy]

theorem nothing_merge (formed : first.WellFormed) :
    ({} : Report).merge first = { first with metadata := .null, graph := .null } := by
  obtain ⟨flag, known⟩ := formed.valid
  have fields : mergeFields [] first.fields = first.fields :=
    (mergeFields_eq_joinAll [] first.fields).trans (Keyed.joinAll_of_distinct mergeOutcome formed.fields)
  have results : Keyed.merge [] first.computed = first.computed := Keyed.merge_of_distinct formed.computed
  have tally : mergeTally none first.tally? = first.tally? := by
    rw [mergeTally_comm]
    rfl
  simp only [Report.merge, known, bothValid_bool, fields, results, tally, Bool.true_and, List.nil_append]

/-- Reports that find the same: they are valid alike, list the same errors and know the same fields, of which they find
the same; and they count the same. -/
structure FindsAlike (report other : Report) : Prop where
  valid : report.valid = other.valid
  errors : report.errors.Perm other.errors
  known : ∀ key, Keyed.has report.fields key = Keyed.has other.fields key
  outcomes : ∀ key outcome outcome', Keyed.find? report.fields key = some outcome →
    Keyed.find? other.fields key = some outcome' → outcome.valid = outcome'.valid ∧ outcome.errors.Perm outcome'.errors
  tally : report.tally? = other.tally?

theorem mergeOutcome_comm {outcome later : FieldOutcome} (one : ∃ flag, outcome.valid = .bool flag)
    (other : ∃ flag, later.valid = .bool flag) :
    (mergeOutcome outcome later).valid = (mergeOutcome later outcome).valid ∧
      (mergeOutcome outcome later).errors.Perm (mergeOutcome later outcome).errors := by
  obtain ⟨flag, known⟩ := one
  obtain ⟨flag', known'⟩ := other
  refine ⟨?_, List.perm_append_comm⟩
  simp only [mergeOutcome, known, known', bothValid_bool, Bool.and_comm]

theorem merge_comm (one : first.WellFormed) (other : second.WellFormed) :
    (first.merge second).FindsAlike (second.merge first) where
  valid := by
    obtain ⟨flag, known⟩ := one.valid
    obtain ⟨flag', known'⟩ := other.valid
    simp only [Report.merge, known, known', bothValid_bool, Bool.and_comm]
  errors := List.perm_append_comm
  known := by
    intro key
    simp only [Report.merge, mergeFields_eq_joinAll, Keyed.has_joinAll, Bool.or_comm]
  outcomes := by
    intro key outcome outcome' found found'
    simp only [Report.merge, find?_mergeFields one.fields, find?_mergeFields other.fields] at found found'
    rcases here : Keyed.find? first.fields key with _ | own <;>
      rcases there : Keyed.find? second.fields key with _ | more <;> rw [here, there] at found found' <;>
      cases found <;> cases found'
    · exact ⟨rfl, .rfl⟩
    · exact ⟨rfl, .rfl⟩
    · exact mergeOutcome_comm (one.valid_of_find? here) (other.valid_of_find? there)
  tally := mergeTally_comm _ _

/-- Folding reports into one another is an action of a monoid: it may be grouped in any way, down to the order of what
is listed, and an empty report has no effect. A report that is folded into an empty one is there again, but for what is
said about the pass. Either of two reports may be folded into the other one for them to find the same. -/
theorem merge_laws (one : first.WellFormed) (two : second.WellFormed) (three : third.WellFormed) :
    (first.merge second).merge third = first.merge (second.merge third) ∧
    (second.merge third).WellFormed ∧
    first.merge {} = first ∧
    ({} : Report).merge first = { first with metadata := .null, graph := .null } ∧
    (first.merge second).FindsAlike (second.merge first) :=
  ⟨merge_assoc two.fields two.computed, two.merge three, merge_nothing first, nothing_merge one, merge_comm one two⟩

/-- A report in which a field has failed, one without counts in which it was skipped, and one with another failure of
it; each of the first two has a result that the third one replaces. -/
theorem merge_laws_email :
    let failing (message : String) : FieldError :=
      { field := .text "email", message := .text message, rule := .text "email" }
    let scored (report : Report) (points : Int) : Report := report.addComputed (.text "total") (.plain (.int points))
    let skipping : Report := { fields := [(.text "email", { skipped := .bool true, reason := .text "Hidden" })] }
    let first := scored (counting.addError (failing "No")).2 1
    let second := scored skipping 2
    let third := scored (counting.addError (failing "Taken")).2 3
    (first.merge second).merge third = first.merge (second.merge third) ∧
    (second.merge third).WellFormed ∧
    first.merge {} = first ∧
    ({} : Report).merge first = { first with metadata := .null, graph := .null } ∧
    (first.merge second).FindsAlike (second.merge first) := by
  intro failing scored skipping first second third
  have counting : counting.WellFormed := ⟨⟨true, rfl⟩, List.forall_mem_nil _, .nil, .nil⟩
  have hidden : ({} : Report).setSkipped (.text "email") (.text "Hidden") = .ok skipping := rfl
  have one : first.WellFormed := (counting.addError (failing "No")).addComputed _ _
  have two : second.WellFormed := (wellFormed_empty.setSkipped hidden).addComputed _ _
  have three : third.WellFormed := (counting.addError (failing "Taken")).addComputed _ _
  exact merge_laws one two three

end Report

end FormRules

import FormRules.Proofs.KeyedJoins
import FormRules.Proofs.PassLogic

/-! What checking the rules of a field does to a report, whatever the rules and the backend: it adds some errors of the
field, and counts each rule and each group once. One that ends in a fault leaves nothing behind but counts. -/

namespace FormRules

namespace Tally

/-- How many rules were met of which nothing has become yet. -/
def pending (tally : Tally) : Int := tally.total - (tally.passed + tally.failed + tally.skipped + tally.computed)

/-- A change of the counts by some pending rules and some failures. -/
structure Moves (change : Tally → Tally) (pending : Int) (failures : Nat) : Prop where
  pending : ∀ tally, (change tally).pending = tally.pending + pending
  failed : ∀ tally, (change tally).failed = tally.failed + failures

theorem Moves.comp {first second : Tally → Tally} {p q : Int} {m n : Nat} (moves : Moves first p m)
    (others : Moves second q n) : Moves (second ∘ first) (p + q) (m + n) where
  pending := by
    intro tally
    rw [Function.comp, others.pending, moves.pending, Int.add_assoc]
  failed := by
    intro tally
    rw [Function.comp, others.failed, moves.failed]
    omega

theorem moves_id : Moves id 0 0 := ⟨fun tally => (Int.add_zero tally.pending).symm, fun tally => (Int.add_zero tally.failed).symm⟩

theorem moves_meet : Moves meet 1 0 := by constructor <;> intro tally <;> simp only [pending, meet] <;> omega

theorem moves_skip : Moves skip (-1) 0 := by constructor <;> intro tally <;> simp only [pending, skip] <;> omega

theorem moves_compute : Moves compute (-1) 0 := by
  constructor <;> intro tally <;> simp only [pending, compute] <;> omega

theorem moves_pass : Moves pass (-1) 0 := by constructor <;> intro tally <;> simp only [pending, pass] <;> omega

theorem moves_fail : Moves fail (-1) 1 := by constructor <;> intro tally <;> simp only [pending, fail] <;> omega

theorem moves_skipAll (count : Nat) : Moves (skipAll · count) 0 0 := by
  constructor <;> intro tally <;> simp only [pending, skipAll] <;> omega

end Tally

namespace Report

/-- A report in which a field has some more errors than in another one, with counts to match. -/
structure Told (report : Report) (name : String) (pending : Int) (added : List FieldError) (later : Report) : Prop where
  named : ∀ error ∈ added, error.field = .text name
  valid : later.valid = if added.isEmpty then report.valid else .bool false
  errors : later.errors = report.errors ++ added
  fields : later.fields = added.foldl (addToField · (.text name)) report.fields
  counted : ∃ change, Tally.Moves change pending added.length ∧ later.tally? = report.tally?.map change
  computed : later.computed = report.computed
  metadata : later.metadata = report.metadata
  graph : later.graph = report.graph

variable {report later last : Report} {name : String} {p q : Int} {errors more : List FieldError}

/-- A report in which an error is listed and filed with a field. -/
def noting (report : Report) (name : String) (error : FieldError) : Report :=
  { report with
    valid := .bool false
    errors := report.errors ++ [error]
    fields := addToField report.fields (.text name) error }

theorem addError_named {error : FieldError} (named : error.field = .text name) :
    report.addError error = (.ok (), report.noting name error) := by
  have known : error.field.asKey = .ok (.text name) := by rw [named]; rfl
  simp only [addError, known, noting]

/-- A report in which a field is marked as valid. -/
def clearing (report : Report) (name : String) : Report :=
  let outcome := (Keyed.find? report.fields (.text name)).getD {}
  { report with
    fields := Keyed.insert report.fields (.text name) { outcome with valid := .bool true, skipped := .bool false } }

theorem setValid_text : report.setValid (.text name) = .ok (report.clearing name) := rfl

theorem told_count {change : Tally → Tally} (moves : Tally.Moves change p 0) :
    report.Told name p [] { report with tally? := report.tally?.map change } where
  named := List.forall_mem_nil _
  valid := rfl
  errors := (List.append_nil _).symm
  fields := rfl
  counted := ⟨change, moves, rfl⟩
  computed := rfl
  metadata := rfl
  graph := rfl

theorem told_same (report : Report) (name : String) : report.Told name 0 [] report := by
  have counted : report.Told name 0 [] { report with tally? := report.tally?.map id } := told_count Tally.moves_id
  rwa [Option.map_id] at counted

/-- Errors that are filed with a field one after the other come after those that it has. -/
theorem foldl_addToField (fields : Keyed FieldOutcome) (name : String) (some : errors ≠ []) :
    errors.foldl (addToField · (.text name)) fields =
      let outcome := (Keyed.find? fields (.text name)).getD {}
      Keyed.insert fields (.text name) { outcome with valid := .bool false, errors := outcome.errors ++ errors } := by
  induction errors generalizing fields with
  | nil => exact absurd rfl some
  | cons error errors ih =>
    rw [List.foldl_cons]
    by_cases last : errors = []
    · subst last
      rfl
    · rw [ih _ last]
      simp only [addToField, Keyed.find?_insert_text_self, Option.getD_some, List.append_assoc, List.singleton_append]
      exact Keyed.insert_insert_text fields name _ _

theorem Told.trans (first : report.Told name p errors later) (second : later.Told name q more last) :
    report.Told name (p + q) (errors ++ more) last where
  named := List.forall_mem_append.mpr ⟨first.named, second.named⟩
  valid := by
    rw [second.valid, first.valid]
    cases errors <;> cases more <;> rfl
  errors := by rw [second.errors, first.errors, List.append_assoc]
  fields := by rw [second.fields, first.fields, List.foldl_append]
  counted := by
    obtain ⟨change, moves, counted⟩ := first.counted
    obtain ⟨change', moves', counted'⟩ := second.counted
    refine ⟨change' ∘ change, List.length_append ▸ moves.comp moves', ?_⟩
    rw [counted', counted, Option.map_map]
  computed := second.computed.trans first.computed
  metadata := second.metadata.trans first.metadata
  graph := second.graph.trans first.graph

end Report

namespace Pass

variable {σ α : Type} {name : String} {p q : Int}

/-- Steps that tell some errors of a field, and whether there were any. A fault leaves the report as it was, but for
the counts. -/
def Tells (name : String) (pending : Int) (steps : Pass σ Bool) : Prop :=
  ∀ progress, match steps.run.run progress with
  | (.ok failed, later) => ∃ errors, failed = !errors.isEmpty ∧ progress.report.Told name pending errors later.report
  | (.error _, later) => ∃ tally?, later.report = { progress.report with tally? }

namespace Tells

theorem pure : Tells (σ := σ) name 0 (pure false) := fun progress => ⟨[], rfl, Report.told_same progress.report name⟩

theorem throw (fault : Fault) : Tells name p (throw fault : Pass σ Bool) := fun progress => ⟨progress.report.tally?, rfl⟩

theorem after_leaving {steps : Pass σ α} {next : α → Pass σ Bool} (first : LeavesReport steps)
    (rest : ∀ value, Tells name p (next value)) : Tells name p (steps >>= next) := by
  intro progress
  have left := first progress
  rw [run_bind]
  rcases ended : steps.run.run progress with ⟨_ | value, later⟩ <;> rw [ended] at left
  · exact ⟨progress.report.tally?, left⟩
  · exact left ▸ rest value later

theorem after_count {change : Tally → Tally} {next : Unit → Pass σ Bool} (moves : Tally.Moves change p 0)
    (rest : Tells name (q - p) (next ())) : Tells name q (count change >>= next) := by
  intro progress
  have counted : (count change).run.run progress = (.ok (), { progress with
      report := { progress.report with tally? := progress.report.tally?.map change } }) := rfl
  have later := rest { progress with report := { progress.report with tally? := progress.report.tally?.map change } }
  rw [run_bind_of_ok counted]
  revert later
  rcases (next ()).run.run _ with ⟨_ | failed, last⟩
  · exact id
  · rintro ⟨errors, said, told⟩
    have all := (Report.told_count moves).trans told
    rw [show p + (q - p) = q by omega] at all
    exact ⟨errors, said, all⟩

theorem passed : Tells (σ := σ) name (-1) passed := after_count Tally.moves_pass pure

theorem failWith {error : FieldError} (named : error.field = .text name) :
    Tells (σ := σ) name (-1) (failWith error) := by
  intro progress
  let failed : Report := { progress.report with tally? := progress.report.tally?.map Tally.fail }
  have counted : (count Tally.fail).run.run progress = (.ok (), { progress with report := failed }) := rfl
  have added : (addError error).run.run { progress with report := failed } =
      (.ok (), { progress with report := failed.noting name error }) := by
    simp only [addError, ExceptT.run, StateT.run, Report.addError_named named]
  have run : (Pass.failWith error).run.run progress =
      (.ok true, { progress with report := failed.noting name error }) := by
    unfold Pass.failWith
    rw [run_bind_of_ok counted, run_bind_of_ok added]
    rfl
  rw [run]
  exact ⟨[error], rfl, List.forall_mem_singleton.mpr named, rfl, rfl, rfl, ⟨Tally.fail, Tally.moves_fail, rfl⟩, rfl, rfl, rfl⟩

end Tells

section Rules

variable (backend : Backend σ) {subject : Subject} (named : subject.path = .text name)

include named

theorem checkRule_tells (rule : Fields) : Tells name 0 (checkRule backend subject rule) := by
  apply Tells.after_count Tally.moves_meet
  cases subject.stance rule with
  | skipped => exact .after_count Tally.moves_skip .pure
  | scored => exact .after_count Tally.moves_compute (.after_leaving (score_leavesReport subject rule) fun _ => .pure)
  | judged =>
    refine .after_leaving (judge_leavesReport backend subject rule) fun outcome => ?_
    split
    · exact .passed
    · exact .failWith named

theorem checkGroup_tells (operator : GroupOperator) (fields : Fields) (children : List RuleNode) :
    Tells name 0 (checkGroup backend subject operator fields children) := by
  apply Tells.after_count Tally.moves_meet
  refine .after_leaving (evaluate_leavesReport backend subject operator fields children) fun message? => ?_
  cases message? with
  | none => exact .passed
  | some message => exact .failWith named

theorem checkNode_tells (node : RuleNode) : Tells name 0 (checkNode backend subject node) := by
  cases node with
  | rule rule => exact checkRule_tells backend named rule
  | group operator fields children => exact checkGroup_tells backend named operator fields children
  | other => exact .pure
  | faulty fault => exact .throw fault

/-- What is told of rules one after the other is told of all of them, as long as none ends in a fault. -/
theorem checkNodes_told (nodes : List RuleNode) {progress later : Progress σ} {failed : Bool}
    (run : (checkNodes backend subject nodes).run.run progress = (.ok failed, later)) :
    ∃ errors, failed = !errors.isEmpty ∧ progress.report.Told name 0 errors later.report := by
  induction nodes generalizing progress failed with
  | nil =>
    cases run
    exact ⟨[], rfl, Report.told_same _ name⟩
  | cons node nodes ih =>
    obtain ⟨first, between, ended, run⟩ := of_bind_ok run
    obtain ⟨others, last, ended', run⟩ := of_bind_ok run
    cases run
    have told := checkNode_tells backend named node progress
    rw [ended] at told
    obtain ⟨errors, rfl, told⟩ := told
    obtain ⟨more, rfl, told'⟩ := ih ended'
    refine ⟨errors ++ more, ?_, told.trans told'⟩
    cases errors <;> rfl

/-- A field is marked as valid once none of its rules and groups has failed. -/
theorem checkAll_run (nodes : List RuleNode) (progress : Progress σ) :
    (checkAll backend subject nodes).run.run progress =
      match (checkNodes backend subject nodes).run.run progress with
      | (.ok true, later) => (.ok (), later)
      | (.ok false, later) => (.ok (), { later with report := later.report.clearing name })
      | (.error fault, later) => (.error fault, later) := by
  unfold checkAll
  rw [run_bind]
  rcases (checkNodes backend subject nodes).run.run progress with ⟨_ | failed, later⟩
  · rfl
  · cases failed with
    | true => rfl
    | false =>
      rw [named]
      rfl

theorem checkAll_told (nodes : List RuleNode) {progress later : Progress σ}
    (run : (checkAll backend subject nodes).run.run progress = (.ok (), later)) :
    ∃ errors told, progress.report.Told name 0 errors told ∧
      later.report = if errors.isEmpty then told.clearing name else told := by
  rw [checkAll_run backend named] at run
  rcases ended : (checkNodes backend subject nodes).run.run progress with ⟨_ | failed, between⟩ <;> rw [ended] at run
  · cases run
  · obtain ⟨errors, rfl, told⟩ := checkNodes_told backend named nodes ended
    cases errors with
    | nil =>
      cases run
      exact ⟨[], _, told, rfl⟩
    | cons error errors =>
      cases run
      exact ⟨error :: errors, _, told, rfl⟩

end Rules

end Pass

end FormRules

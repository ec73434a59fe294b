import FormRules.Pass.Form
import FormRules.Proofs.Agreement

/-! Running the steps of a pass, and assertions about the steps: about those that end without a fault, and that
they do. The rules follow the steps as they are written; they say nothing about what a fault leaves behind. -/

namespace FormRules

/-- Whether scoring the value of a field by a rule, if that is what the rule is for, comes to an end. -/
def Subject.CanScore (subject : Subject) (rule : Fields) : Prop :=
  subject.stance rule = .scored →
    ∀ scores, Yields (Pass.withScore scores subject.path subject.value rule) fun _ => True

namespace Pass

variable {σ α β : Type} {progress : Progress σ}

theorem run_lift (result : Except Fault α) :
    (liftM result : Pass σ α).run.run progress = (result, progress) := rfl

theorem lift_ok_bind (value : α) (next : α → Pass σ β) :
    (liftM (Except.ok value : Except Fault α) : Pass σ α) >>= next = next value := rfl

theorem lift_error_bind (fault : Fault) (next : α → Pass σ β) :
    (liftM (Except.error fault : Except Fault α) : Pass σ α) >>= next = throw fault := rfl

theorem run_get : (get : Pass σ (Progress σ)).run.run progress = (.ok progress, progress) := rfl

theorem run_bind (steps : Pass σ α) (next : α → Pass σ β) :
    (steps >>= next).run.run progress =
      match steps.run.run progress with
      | (.ok value, later) => (next value).run.run later
      | (.error fault, later) => (.error fault, later) := by
  show (match steps.run.run progress with
      | (value, later) => (ExceptT.bindCont next value).run later) = _
  rcases steps.run.run progress with ⟨_ | value, later⟩ <;> rfl

theorem run_bind_of_ok {steps : Pass σ α} {value : α} {later : Progress σ}
    (first : steps.run.run progress = (.ok value, later)) (next : α → Pass σ β) :
    (steps >>= next).run.run progress = (next value).run.run later := by
  rw [run_bind, first]

/-- Steps that end without a fault have ended each of their parts without one. -/
theorem of_bind_ok {steps : Pass σ α} {next : α → Pass σ β} {result : β} {last : Progress σ}
    (run : (steps >>= next).run.run progress = (.ok result, last)) :
    ∃ value later, steps.run.run progress = (.ok value, later) ∧
      (next value).run.run later = (.ok result, last) := by
  rw [run_bind] at run
  split at run
  next value later first => exact ⟨value, later, first, run⟩
  next => cases run

theorem of_lift_bind_ok {result : Except Fault α} {next : α → Pass σ β} {last : β} {later : Progress σ}
    (run : (liftM result >>= next).run.run progress = (.ok last, later)) :
    ∃ value, result = .ok value ∧ (next value).run.run progress = (.ok last, later) := by
  cases result with
  | error fault => cases run
  | ok value => exact ⟨value, rfl, run⟩

/-- Whatever steps make of a progress with the first property has the second one, unless they end in
a fault. -/
def Leads (before : Progress σ → Prop) (steps : Pass σ α) (after : α → Progress σ → Prop) : Prop :=
  ∀ progress, before progress → ∀ value later,
    steps.run.run progress = (.ok value, later) → after value later

namespace Leads

variable {before between : Progress σ → Prop} {after : α → Progress σ → Prop}

theorem pure {value : α} (holds : ∀ progress, before progress → after value progress) :
    Leads before (pure value) after := by
  intro progress start _ _ run
  cases run
  exact holds progress start

theorem throw (fault : Fault) : Leads before (throw fault : Pass σ α) after := by
  intro _ _ _ _ run
  cases run

theorem lift {result : Except Fault α} {good : α → Prop} (ensures : Ensures result good) :
    Leads before (liftM result) fun value later => before later ∧ good value := by
  intro progress start value later run
  rw [run_lift] at run
  obtain ⟨ended, rfl⟩ := Prod.mk.inj run
  exact ⟨start, ensures value ended⟩

theorem get : Leads before get fun value later => before later ∧ value = later := by
  intro progress start _ _ run
  cases run
  exact ⟨start, rfl⟩

theorem set {next : Progress σ} {after : Unit → Progress σ → Prop}
    (holds : ∀ progress, before progress → after () next) : Leads before (set next) after := by
  intro progress start _ _ run
  cases run
  exact holds progress start

theorem modify {change : Progress σ → Progress σ} {after : Unit → Progress σ → Prop}
    (holds : ∀ progress, before progress → after () (change progress)) :
    Leads before (modify change) after := by
  intro progress start _ _ run
  cases run
  exact holds progress start

theorem bind {steps : Pass σ α} {next : α → Pass σ β} {after : β → Progress σ → Prop}
    (middle : α → Progress σ → Prop) (first : Leads before steps middle)
    (rest : ∀ value, Leads (middle value) (next value) after) : Leads before (steps >>= next) after := by
  intro progress start result last run
  obtain ⟨value, later, ended, run⟩ := of_bind_ok run
  exact rest value later (first progress start value later ended) result last run

theorem weaken {steps : Pass σ α} {less : α → Progress σ → Prop} (leads : Leads before steps after)
    (first : ∀ progress, between progress → before progress)
    (last : ∀ value progress, after value progress → less value progress) :
    Leads between steps less := by
  intro progress start value later run
  exact last _ _ (leads progress (first _ start) value later run)

/-- A fact about all progress that the steps begin with may be used in running them. -/
theorem assume {steps : Pass σ α} {fact : Prop} (known : ∀ progress, before progress → fact)
    (leads : fact → Leads before steps after) : Leads before steps after :=
  fun progress start => leads (known progress start) progress start

end Leads

/-- Whatever the progress, steps end without a fault, and with a good result. -/
def Returns (steps : Pass σ α) (good : α → Prop) : Prop :=
  ∀ progress, ∃ value later, steps.run.run progress = (.ok value, later) ∧ good value

namespace Returns

variable {good : α → Prop}

theorem pure {value : α} (holds : good value) : Returns (σ := σ) (pure value) good :=
  fun progress => ⟨value, progress, rfl, holds⟩

theorem lift {result : Except Fault α} {value : α} (ended : result = .ok value) (holds : good value) :
    Returns (σ := σ) (liftM result) good := by
  intro progress
  subst ended
  exact ⟨value, progress, rfl, holds⟩

theorem bind {steps : Pass σ α} {next : α → Pass σ β} {better : β → Prop} (good : α → Prop)
    (first : Returns steps good) (rest : ∀ value, good value → Returns (next value) better) :
    Returns (steps >>= next) better := by
  intro progress
  obtain ⟨value, later, ended, holds⟩ := first progress
  obtain ⟨result, last, run, better⟩ := rest value holds later
  exact ⟨result, last, (run_bind_of_ok ended next).trans run, better⟩

theorem weaken {steps : Pass σ α} {less : α → Prop} (returns : Returns steps good)
    (implies : ∀ value, good value → less value) : Returns steps less := by
  intro progress
  obtain ⟨value, later, ended, holds⟩ := returns progress
  exact ⟨value, later, ended, implies value holds⟩

end Returns

/-- From any progress with the first property, steps end without a fault, and with the second property. -/
def Completes (before : Progress σ → Prop) (steps : Pass σ α) (after : α → Progress σ → Prop) : Prop :=
  ∀ progress, before progress → ∃ value later, steps.run.run progress = (.ok value, later) ∧ after value later

namespace Completes

variable {before : Progress σ → Prop} {after : α → Progress σ → Prop}

theorem pure {value : α} (holds : ∀ progress, before progress → after value progress) :
    Completes before (pure value) after :=
  fun progress start => ⟨value, progress, rfl, holds progress start⟩

theorem lift {result : Except Fault α} {good : α → Prop} (yields : Yields result good)
    (holds : ∀ value progress, good value → before progress → after value progress) :
    Completes before (liftM result) after := by
  intro progress start
  obtain ⟨value, rfl, known⟩ := yields
  exact ⟨value, progress, rfl, holds value progress known start⟩

theorem get : Completes before get fun value later => before later ∧ value = later :=
  fun progress start => ⟨progress, progress, rfl, start, rfl⟩

theorem set {next : Progress σ} {after : Unit → Progress σ → Prop}
    (holds : ∀ progress, before progress → after () next) : Completes before (set next) after :=
  fun progress start => ⟨(), next, rfl, holds progress start⟩

theorem modify {change : Progress σ → Progress σ} {after : Unit → Progress σ → Prop}
    (holds : ∀ progress, before progress → after () (change progress)) :
    Completes before (modify change) after :=
  fun progress start => ⟨(), change progress, rfl, holds progress start⟩

theorem bind {steps : Pass σ α} {next : α → Pass σ β} {after : β → Progress σ → Prop}
    (middle : α → Progress σ → Prop) (first : Completes before steps middle)
    (rest : ∀ value, Completes (middle value) (next value) after) : Completes before (steps >>= next) after := by
  intro progress start
  obtain ⟨value, later, ended, between⟩ := first progress start
  obtain ⟨result, last, run, holds⟩ := rest value later between
  exact ⟨result, last, (run_bind_of_ok ended next).trans run, holds⟩

theorem weaken {steps : Pass σ α} {more : Progress σ → Prop} {less : α → Progress σ → Prop}
    (completes : Completes before steps after) (first : ∀ progress, more progress → before progress)
    (last : ∀ value progress, after value progress → less value progress) : Completes more steps less := by
  intro progress start
  obtain ⟨value, later, ended, holds⟩ := completes progress (first progress start)
  exact ⟨value, later, ended, last value later holds⟩

theorem restrict {steps : Pass σ α} {more : Progress σ → Prop} (completes : Completes before steps after)
    (first : ∀ progress, more progress → before progress) : Completes more steps after :=
  completes.weaken first fun _ _ last => last

/-- A fact about all progress that the steps begin with may be used in running them. -/
theorem assume {steps : Pass σ α} {fact : Prop} (known : ∀ progress, before progress → fact)
    (completes : fact → Completes before steps after) : Completes before steps after :=
  fun progress start => completes (known progress start) progress start

end Completes

/-- A path that can be taken apart is a text. -/
theorem subjectOf_ok {context : Context} {path : Value} {fields : Fields} {isRequired : Bool} {subject : Subject}
    (known : subjectOf context path fields isRequired = .ok subject) :
    ∃ name value, path = .text name ∧
      subject = ⟨path, value, isRequired, context.child ((Path.segments name).map .text)⟩ := by
  obtain ⟨value, _, known⟩ := Fault.of_bind_ok known
  obtain ⟨name, taken, known⟩ := Fault.of_bind_ok known
  cases known
  refine ⟨name, value, ?_, rfl⟩
  unfold Value.asText at taken
  split at taken
  next => cases taken; rfl
  next => cases taken

/-! Judging a rule, scoring it and evaluating a group leave the report alone. -/

/-- Steps that leave the report as it was, also where they end in a fault. -/
def LeavesReport (steps : Pass σ α) : Prop :=
  ∀ progress, (steps.run.run progress).2.report = progress.report

namespace LeavesReport

theorem pure (value : α) : LeavesReport (σ := σ) (pure value) := fun _ => rfl

theorem throw (fault : Fault) : LeavesReport (throw fault : Pass σ α) := fun _ => rfl

theorem lift (result : Except Fault α) : LeavesReport (σ := σ) (liftM result) := by
  intro progress
  rw [run_lift]

theorem bind {steps : Pass σ α} {next : α → Pass σ β} (first : LeavesReport steps)
    (rest : ∀ value, LeavesReport (next value)) : LeavesReport (steps >>= next) := by
  intro progress
  have left := first progress
  rw [run_bind]
  rcases ended : steps.run.run progress with ⟨_ | value, later⟩ <;> rw [ended] at left
  · exact left
  · exact (rest value later).trans left

end LeavesReport

variable (backend : Backend σ) (subject : Subject)

theorem judge_leavesReport (rule : Fields) : LeavesReport (judge backend subject rule) := fun _ => rfl

theorem score_leavesReport (rule : Fields) : LeavesReport (σ := σ) (score subject rule) := by
  intro progress
  unfold score
  rw [run_bind_of_ok run_get]
  cases withScore progress.scores subject.path subject.value rule <;> rfl

theorem failure?_leavesReport (rule : Fields) : LeavesReport (failure? backend subject rule) := by
  unfold failure?
  cases subject.stance rule with
  | skipped => exact .pure _
  | scored => exact (score_leavesReport subject rule).bind fun _ => .pure _
  | judged => exact (judge_leavesReport backend subject rule).bind fun _ => .pure _

mutual

theorem examine_leavesReport : (node : RuleNode) → LeavesReport (examine backend subject node)
  | .rule rule => failure?_leavesReport backend subject rule
  | .group _ fields children =>
    (collect_leavesReport (stopsEarly fields) children).bind fun _ => (LeavesReport.lift _).bind fun _ => .pure _
  | .other => .pure _
  | .faulty fault => .throw fault

theorem collect_leavesReport (stops : Bool) :
    (children : List RuleNode) → LeavesReport (collect backend subject stops children)
  | [] => .pure _
  | child :: rest => by
    unfold collect
    refine (examine_leavesReport child).bind fun failure? => ?_
    cases failure? with
    | none => exact collect_leavesReport stops rest
    | some failure =>
      cases stops with
      | true => exact .pure _
      | false => exact (collect_leavesReport false rest).bind fun _ => .pure _

end

theorem evaluate_leavesReport (operator : GroupOperator) (fields : Fields) (children : List RuleNode) :
    LeavesReport (evaluate backend subject operator fields children) :=
  (collect_leavesReport backend subject (stopsEarly fields) children).bind fun _ => .lift _

/-- The report of steps that begin with an empty one is what they leave of it. -/
theorem ownReport_leads {steps : Pass σ Unit} {property : Report → Prop}
    (leads : Leads (·.report = Report.counting) steps fun _ later => property later.report) :
    Leads (fun _ => True) (ownReport steps) fun report _ => property report := by
  refine Leads.bind _ .get fun _ => ?_
  refine Leads.bind (fun _ later => later.report = Report.counting) (.modify fun _ _ => rfl) fun _ => ?_
  refine Leads.bind _ leads fun _ => Leads.bind _ .get fun last => ?_
  refine Leads.bind (fun _ _ => property last.report) (.modify ?_) fun _ => .pure fun _ kept => kept
  intro later ⟨kept, same⟩
  exact same ▸ kept

end Pass

end FormRules

import FormRules.Proofs.GroupVerdict

/-! Groups in which the condition of every rule is false. No rule is checked, so the verdict is settled by the shape
of the group alone: its rules count as holding, and a group that denies one of them fails. -/

namespace FormRules

/-- Whether the condition of a rule keeps it from being applied. -/
def Subject.Rejects (subject : Subject) (rule : Fields) : Prop :=
  Condition.admits subject.context.source (Fields.get rule "when") = false

theorem Subject.Rejects.stance {subject : Subject} {rule : Fields} (rejects : subject.Rejects rule) :
    subject.stance rule = .skipped := by
  unfold Subject.Rejects at rejects
  simp only [Subject.stance, rejects, Bool.not_false, if_true]

/-- Trees without a group that denies its members, or one of which some member has to hold but that has none. -/
inductive RuleNode.Affirms : RuleNode → Prop where
  | rule {fields : Fields} : Affirms (.rule fields)
  | group {operator : GroupOperator} {fields : Fields} {children : List RuleNode} (affirming : operator ≠ .not)
      (some : operator = .or → children ≠ []) (members : ∀ child ∈ children, Affirms child) :
      Affirms (.group operator fields children)
  | other : Affirms .other

namespace Pass

variable {σ α β : Type}

/-- Steps that come to the same result whatever the progress, and leave it as it is. -/
def Answers (steps : Pass σ α) (result : Except Fault α) : Prop :=
  ∀ progress, steps.run.run progress = (result, progress)

namespace Answers

theorem pure (value : α) : Answers (σ := σ) (pure value) (.ok value) := fun _ => rfl

theorem lift (result : Except Fault α) : Answers (σ := σ) (liftM result) result := fun _ => rfl

theorem bind {steps : Pass σ α} {next : α → Pass σ β} {value : α} {result : Except Fault β}
    (first : Answers steps (.ok value)) (rest : Answers (next value) result) : Answers (steps >>= next) result :=
  fun progress => (run_bind_of_ok (first progress) next).trans (rest progress)

/-- Steps each of which has an answer have one together. -/
theorem bind_exists {steps : Pass σ α} {next : α → Pass σ β} (first : ∃ result, Answers steps result)
    (rest : ∀ value, ∃ result, Answers (next value) result) : ∃ result, Answers (steps >>= next) result := by
  obtain ⟨result, first⟩ := first
  cases result with
  | ok value =>
    obtain ⟨result, rest⟩ := rest value
    exact ⟨result, first.bind rest⟩
  | error fault =>
    refine ⟨.error fault, fun progress => ?_⟩
    rw [run_bind, first progress]

end Answers

section Trees

variable {backend : Backend σ} {judgement : Judgement} {subject : Subject}

theorem failure?_gated {rule : Fields} (rejects : subject.Rejects rule) :
    Answers (failure? backend subject rule) (.ok none) := by
  unfold failure?
  rw [rejects.stance]
  exact .pure none

theorem collect_answers {children : List RuleNode} (stops : Bool)
    (examined : ∀ child ∈ children, ∃ result, Answers (examine backend subject child) result) :
    ∃ result, Answers (collect backend subject stops children) result := by
  induction children with
  | nil => exact ⟨_, .pure _⟩
  | cons child rest ih =>
    have later := ih fun next member => examined next (List.mem_cons_of_mem _ member)
    unfold collect
    refine Answers.bind_exists (examined child List.mem_cons_self) fun failure? => ?_
    cases failure? with
    | none => exact later
    | some failure =>
      cases stops with
      | true => exact ⟨_, .pure _⟩
      | false => exact Answers.bind_exists later fun findings => ⟨_, .pure _⟩

theorem examine_answers {node : RuleNode} (gated : node.Each subject.Rejects) :
    ∃ result, Answers (examine backend subject node) result := by
  induction gated with
  | rule rejects => exact ⟨_, failure?_gated rejects⟩
  | other => exact ⟨_, .pure none⟩
  | group _ ih =>
    refine Answers.bind_exists (collect_answers _ ih) fun findings => ?_
    exact Answers.bind_exists ⟨_, .lift _⟩ fun verdict? => ⟨_, .pure _⟩

theorem collect_affirmed {children : List RuleNode} (stops : Bool)
    (passed : ∀ child ∈ children, Answers (examine backend subject child) (.ok none)) :
    Answers (collect backend subject stops children) (.ok {}) := by
  induction children with
  | nil => exact .pure _
  | cons child rest ih =>
    have later := ih fun next member => passed next (List.mem_cons_of_mem _ member)
    unfold collect
    exact (passed child List.mem_cons_self).bind later

theorem verdict?_affirmed {operator : GroupOperator} {fields : Fields} {children : List RuleNode}
    (affirming : operator ≠ .not) (some : operator = .or → children ≠ []) :
    Answers (σ := σ) (liftM (verdict? operator fields children.length {})) (.ok none) := by
  have passes : operator.fails 0 children.length = false := by
    cases operator with
    | and => rfl
    | or =>
      have length : 0 ≠ children.length := fun empty => some rfl (List.eq_nil_of_length_eq_zero empty.symm)
      exact beq_false_of_ne length
    | not => exact absurd rfl affirming
  unfold verdict?
  simp only [Bool.false_eq_true, if_false, List.length_nil, passes]
  exact .lift _

theorem examine_affirmed {node : RuleNode} (affirms : node.Affirms) (gated : node.Each subject.Rejects) :
    Answers (examine backend subject node) (.ok none) := by
  induction affirms with
  | rule =>
    cases gated with
    | rule rejects => exact failure?_gated rejects
  | other => exact .pure none
  | group affirming some _ ih =>
    cases gated with
    | group members =>
      have passed := fun child member => ih child member (members child member)
      exact (collect_affirmed _ passed).bind ((verdict?_affirmed affirming some).bind (.pure none))

variable {operator : GroupOperator} {fields : Fields} {children : List RuleNode}

theorem evaluate_affirmed (affirms : (RuleNode.group operator fields children).Affirms)
    (gated : (RuleNode.group operator fields children).Each subject.Rejects) :
    Answers (evaluate backend subject operator fields children) (.ok none) := by
  cases affirms with
  | group affirming some members =>
    cases gated with
    | group rejected =>
      refine Answers.bind (collect_affirmed _ fun child member => ?_) (verdict?_affirmed affirming some)
      exact examine_affirmed (members child member) (rejected child member)

theorem evaluate_answers (backend : Backend σ) (gated : (RuleNode.group operator fields children).Each subject.Rejects) :
    ∃ result, Answers (evaluate backend subject operator fields children) result := by
  cases gated with
  | group members =>
    refine Answers.bind_exists (collect_answers _ fun child member => ?_) fun findings => ⟨_, .lift _⟩
    exact examine_answers (members child member)

theorem failure?_gated_settles {rule : Fields} (rejects : subject.Rejects rule) :
    Settles (failure? backend subject rule)
      (ChildFailure.Shows · (RuleNode.stoppedReading judgement subject (.rule rule)) false) Fault.IsJoining := by
  intro progress
  refine .inl ⟨none, progress, failure?_gated rejects progress, ?_, nofun⟩
  rw [RuleNode.stoppedReading, subject.isExempt_eq_stance, rejects.stance]
  rfl

theorem evaluate_gated_settles (backend : Backend σ) (judgement : Judgement)
    (gated : (RuleNode.group operator fields children).Each subject.Rejects) :
    Settles (evaluate backend subject operator fields children)
      (·.isNone = (RuleNode.group operator fields children).stoppedReading judgement subject) Fault.IsJoining :=
  evaluate_settles (gated.mono fun _ rejects => failure?_gated_settles rejects)

/-- Where the condition of every rule is false, a group comes to the verdict that it has when all rules hold, asking
the backend for none of them and scoring nothing; and it passes, without an error, unless some group in it denies its
members or has none to hold. -/
theorem checkGroup_gated (gated : (RuleNode.group operator fields children).Each subject.Rejects)
    (progress : Progress σ) :
    (∃ result, (evaluate backend subject operator fields children).run.run progress = (result, progress) ∧
      ((∃ message?, result = .ok message? ∧ message?.isNone =
        (RuleNode.group operator fields children).stoppedReading (fun _ _ _ => .pass) subject) ∨
        ∃ fault, result = .error fault ∧ fault.IsJoining)) ∧
    ((RuleNode.group operator fields children).Affirms →
      (checkGroup backend subject operator fields children).run.run progress = (.ok false, { progress with
        report := { progress.report with tally? := progress.report.tally?.map fun tally => tally.meet.pass } })) := by
  refine ⟨?_, ?_⟩
  -- every rule is exempt, so the judgement in the reading is any one
  · obtain ⟨result, answer⟩ := evaluate_answers backend gated
    have settles := evaluate_gated_settles backend (fun _ _ _ => .pass) gated
    rcases settles progress with ⟨message?, later, ended, reads⟩ | ⟨fault, later, ended, joining⟩
    · obtain ⟨rfl, rfl⟩ := Prod.mk.inj ((answer progress).symm.trans ended)
      exact ⟨_, ended, .inl ⟨message?, rfl, reads⟩⟩
    · obtain ⟨rfl, rfl⟩ := Prod.mk.inj ((answer progress).symm.trans ended)
      exact ⟨_, ended, .inr ⟨fault, rfl, joining⟩⟩
  · intro affirms
    have met : (count Tally.meet).run.run progress = (.ok (), { progress with
        report := { progress.report with tally? := progress.report.tally?.map Tally.meet } }) := rfl
    unfold checkGroup
    rw [run_bind_of_ok met, run_bind_of_ok (evaluate_affirmed affirms gated _)]
    cases progress.report.tally? <;> rfl

end Trees

/-- A group with two rules that apply to another mode, on a backend that would reject everything; and the denial of
its denial. -/
theorem checkGroup_gated_mode :
    let backend : Backend Unit := fun _ rule _ state => (.ok (.failure rule "No"), state)
    let subject : Subject :=
      ⟨.text "name", .text "x", true, .ofData (.ofFields [("mode", .text "phone")])⟩
    let rule (kind : String) : RuleNode :=
      .rule [(.text "type", .text kind), (.text "when", .ofFields [("mode", .text "email")])]
    let progress : Progress Unit := { backend := () }
    (checkGroup backend subject .or [] [.group .and [] [rule "email"], rule "numeric"]).run.run progress =
      (.ok false, { progress with
        report := { progress.report with tally? := progress.report.tally?.map fun tally => tally.meet.pass } }) ∧
    ∃ result, (evaluate backend subject .not [] [.group .not [] [rule "email"]]).run.run progress =
      (result, progress) ∧ ((∃ message?, result = .ok message? ∧ message?.isNone =
        (RuleNode.group .not [] [.group .not [] [rule "email"]]).stoppedReading (fun _ _ _ => .pass) subject) ∨
        ∃ fault, result = .error fault ∧ fault.IsJoining) := by
  intro backend subject rule progress
  have rejects (kind : String) : subject.Rejects
      [(.text "type", .text kind), (.text "when", .ofFields [("mode", .text "email")])] := rfl
  have single (operator : GroupOperator) {child : RuleNode} (each : child.Each subject.Rejects) :
      (RuleNode.group operator [] [child]).Each subject.Rejects := .group (List.forall_mem_singleton.mpr each)
  have inner : (RuleNode.group .and [] [rule "email"]).Affirms :=
    .group nofun nofun (List.forall_mem_singleton.mpr .rule)
  have gated : (RuleNode.group .or [] [.group .and [] [rule "email"], rule "numeric"]).Each subject.Rejects := by
    refine .group (List.forall_mem_cons.mpr ⟨single .and (.rule (rejects _)), ?_⟩)
    exact List.forall_mem_singleton.mpr (.rule (rejects _))
  have affirms : (RuleNode.group .or [] [.group .and [] [rule "email"], rule "numeric"]).Affirms :=
    .group nofun nofun (List.forall_mem_cons.mpr ⟨inner, List.forall_mem_singleton.mpr .rule⟩)
  have denied := single .not (single .not (.rule (rejects "email")))
  exact ⟨(checkGroup_gated gated progress).2 affirms, (checkGroup_gated denied progress).1⟩

/-- A group that denies a rule fails if the condition of the rule is false. -/
theorem evaluate_denied_gated :
    let backend : Backend Unit := fun _ _ _ state => (.ok .pass, state)
    let subject : Subject := ⟨.text "name", .text "x", true, .ofData (.object [])⟩
    let rule : Fields := [(.text "type", .text "email"), (.text "when", .ofFields [("mode", .text "email")])]
    let progress : Progress Unit := { backend := () }
    (RuleNode.group .not [] [.rule rule]).Each subject.Rejects ∧
    (evaluate backend subject .not [] [.rule rule]).run.run progress =
      (.ok (some (.text "Validation group failed")), progress) := by
  intro backend subject rule progress
  have rejects : subject.Rejects rule := rfl
  exact ⟨.group (List.forall_mem_singleton.mpr (.rule rejects)), rfl⟩

end Pass

end FormRules

import FormRules.Proofs.PassLogic

/-! How many rules a list counts for. Where it is checked, each of its rules and each of its groups is met once,
whatever becomes of it. Where it is skipped, groups count for the rules inside of them. -/

namespace FormRules

namespace RuleNode

/-- How many rules a member of a list counts for where the list is checked. -/
def met : RuleNode → Int
  | .rule _ | .group .. => 1
  | .other | .faulty _ => 0

/-- How many more rules there are inside of a group than the one that it counts for where it is checked. -/
def surplus : RuleNode → Int
  | .group _ _ children => ((leavesOfAll children).toOption.getD []).length - 1
  | .rule _ | .other | .faulty _ => 0

def metOfAll : List RuleNode → Int
  | [] => 0
  | node :: nodes => node.met + metOfAll nodes

def surplusOfAll : List RuleNode → Int
  | [] => 0
  | node :: nodes => node.surplus + surplusOfAll nodes

theorem leaves_length {node : RuleNode} {rules : List Fields} (taken : node.leaves = .ok rules) :
    (rules.length : Int) = node.met + node.surplus := by
  cases node with
  | rule fields =>
    cases taken
    rfl
  | group operator fields children =>
    rw [leaves] at taken
    simp only [met, surplus, taken, Except.toOption, Option.getD_some]
    omega
  | other =>
    cases taken
    rfl
  | faulty fault => cases taken

theorem leavesOfAll_length {nodes : List RuleNode} {rules : List Fields} (taken : leavesOfAll nodes = .ok rules) :
    (rules.length : Int) = metOfAll nodes + surplusOfAll nodes := by
  induction nodes generalizing rules with
  | nil =>
    cases taken
    rfl
  | cons node nodes ih =>
    obtain ⟨first, own, taken⟩ := Fault.of_bind_ok taken
    obtain ⟨others, rest, taken⟩ := Fault.of_bind_ok taken
    cases taken
    have here := leaves_length own
    have later := ih rest
    simp only [metOfAll, surplusOfAll, List.length_append]
    omega

theorem surplusOfAll_of_plain {nodes : List RuleNode} (plain : ∀ node ∈ nodes, node.surplus = 0) :
    surplusOfAll nodes = 0 := by
  induction nodes with
  | nil => rfl
  | cons node nodes ih =>
    obtain ⟨here, others⟩ := List.forall_mem_cons.mp plain
    rw [surplusOfAll, here, ih others]
    rfl

end RuleNode

namespace Pass

variable {σ α β : Type} {m n : Int}

/-- Whether the report at hand has met some number of rules. -/
def HasMet (total : Int) (progress : Progress σ) : Prop := progress.report.tally?.map (·.total) = some total

/-- Steps that meet some more rules, unless they end in a fault. -/
def Meets (steps : Pass σ α) (more : Int) : Prop := ∀ total, Leads (HasMet total) steps fun _ => HasMet (total + more)

namespace Meets

theorem pure (value : α) : Meets (σ := σ) (pure value) 0 :=
  fun total => .pure fun _ met => (Int.add_zero total).symm ▸ met

theorem throw (fault : Fault) (more : Int) : Meets (throw fault : Pass σ α) more := fun _ => .throw fault

theorem bind {steps : Pass σ α} {next : α → Pass σ β} (first : Meets steps m) (rest : ∀ value, Meets (next value) n) :
    Meets (steps >>= next) (m + n) := by
  intro total
  refine Leads.bind _ (first total) fun value => ?_
  rw [← Int.add_assoc]
  exact rest value (total + m)

/-- Steps that meet no rules may come before others. -/
theorem bind_quiet {steps : Pass σ α} {next : α → Pass σ β} (first : Meets steps 0)
    (rest : ∀ value, Meets (next value) n) : Meets (steps >>= next) n := by
  have all := first.bind rest
  rwa [Int.zero_add] at all

theorem count {change : Tally → Tally} (moved : ∀ tally, (change tally).total = tally.total + m) :
    Meets (σ := σ) (count change) m := by
  intro total
  refine .modify fun progress met => ?_
  obtain ⟨tally, counted, rfl⟩ := Option.map_eq_some_iff.mp met
  simp only [HasMet, counted, Option.map_some, moved]

/-- Noting what has become of a rule is not to meet another one. -/
theorem note {change : Tally → Tally} (same : ∀ tally, (change tally).total = tally.total) :
    Meets (σ := σ) (Pass.count change) 0 :=
  count fun tally => (same tally).trans (Int.add_zero _).symm

theorem of_leavesReport {steps : Pass σ α} (leaves : LeavesReport steps) : Meets steps 0 := by
  intro total progress met value later run
  have same := leaves progress
  rw [run] at same
  rw [HasMet, same, Int.add_zero]
  exact met

theorem passed : Meets (σ := σ) passed 0 := bind_quiet (note fun _ => rfl) fun _ => pure false

theorem addError (error : FieldError) : Meets (σ := σ) (addError error) 0 := by
  intro total progress met _ later run
  obtain ⟨_, rfl⟩ := Prod.mk.inj run
  have same : (progress.report.addError error).2.tally? = progress.report.tally? := by
    unfold Report.addError
    cases error.field.asKey <;> rfl
  rw [HasMet, Int.add_zero]
  exact (congrArg _ same).trans met

theorem failWith (error : FieldError) : Meets (σ := σ) (failWith error) 0 :=
  bind_quiet (note fun _ => rfl) fun _ => bind_quiet (addError error) fun _ => pure true

theorem setValid (path : Value) : Meets (σ := σ) (do
    let progress ← get
    let report ← progress.report.setValid path
    set { progress with report }) 0 := by
  intro total progress met _ later run
  obtain ⟨_, _, got, run⟩ := of_bind_ok run
  cases got
  obtain ⟨report, valid, run⟩ := of_lift_bind_ok run
  cases run
  obtain ⟨key, _, valid⟩ := Fault.of_bind_ok valid
  cases valid
  exact (Int.add_zero total).symm ▸ met

end Meets

variable (backend : Backend σ) (subject : Subject)

theorem checkRule_meets (rule : Fields) : Meets (checkRule backend subject rule) 1 := by
  refine .bind (m := 1) (n := 0) (.count fun _ => rfl) fun _ => ?_
  cases subject.stance rule with
  | skipped => exact .bind_quiet (.note fun _ => rfl) fun _ => .pure false
  | scored =>
    refine .bind_quiet (.note fun _ => rfl) fun _ => ?_
    exact .bind_quiet (.of_leavesReport (score_leavesReport subject rule)) fun _ => .pure false
  | judged =>
    refine .bind_quiet (.of_leavesReport (judge_leavesReport backend subject rule)) fun outcome => ?_
    split
    · exact .passed
    · exact .failWith _

theorem checkGroup_meets (operator : GroupOperator) (fields : Fields) (children : List RuleNode) :
    Meets (checkGroup backend subject operator fields children) 1 := by
  refine .bind (m := 1) (n := 0) (.count fun _ => rfl) fun _ => ?_
  have leaves := evaluate_leavesReport backend subject operator fields children
  refine .bind_quiet (.of_leavesReport leaves) fun message? => ?_
  cases message? with
  | none => exact .passed
  | some message => exact .failWith _

theorem checkNode_meets (node : RuleNode) : Meets (checkNode backend subject node) node.met := by
  cases node with
  | rule rule => exact checkRule_meets backend subject rule
  | group operator fields children => exact checkGroup_meets backend subject operator fields children
  | other => exact .pure false
  | faulty fault => exact .throw fault 0

theorem checkNodes_meets (nodes : List RuleNode) :
    Meets (checkNodes backend subject nodes) (RuleNode.metOfAll nodes) := by
  induction nodes with
  | nil => exact .pure false
  | cons node nodes ih =>
    have rest (failed : Bool) := Meets.bind (n := 0) ih fun others => .pure (failed || others)
    rw [Int.add_zero] at rest
    exact .bind (checkNode_meets backend subject node) rest

/-- A list that is checked counts for its rules and groups. -/
theorem checkAll_meets (nodes : List RuleNode) : Meets (checkAll backend subject nodes) (RuleNode.metOfAll nodes) := by
  have all := Meets.bind (n := 0) (checkNodes_meets backend subject nodes) fun failed =>
    show Meets (if !failed then _ else Pure.pure ()) 0 by
      cases failed with
      | true => exact .pure ()
      | false => exact .setValid subject.path
  rwa [Int.add_zero] at all

end Pass

end FormRules

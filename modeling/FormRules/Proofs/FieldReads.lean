import FormRules.Dependency.Extract
import FormRules.Proofs.PassLogic
import FormRules.Proofs.RuleReads

/-! What checking a field reads of the data: its own value, and the fields that the extraction finds in its
conditions and rules. Data that agree on these give the same report, the same scores and the same traffic,
or the same fault. -/

namespace FormRules

/-- The same subject in a context with other data. -/
def Subject.withData (subject : Subject) (data : Value) : Subject :=
  { subject with context := subject.context.withData data }

/-- A rule for which it makes no difference whether the data are others: whether it applies and what
comes of it is the same. -/
structure Subject.Indifferent (backend : Backend σ) (subject : Subject) (data : Value) (rule : Fields) : Prop where
  stance : (subject.withData data).stance rule = subject.stance rule
  outcome : ∀ state, backend subject.value rule (subject.context.withData data) state =
    backend subject.value rule subject.context state

namespace Pass

section Indifferent

variable {σ : Type} {backend : Backend σ} {subject : Subject} {data : Value}

theorem judge_withData {rule : Fields} (same : subject.Indifferent backend data rule) :
    judge backend (subject.withData data) rule = judge backend subject rule := by
  funext progress
  have outcome := same.outcome progress.backend
  unfold judge Subject.withData
  simp only [outcome]

theorem failure?_withData {rule : Fields} (same : subject.Indifferent backend data rule) :
    failure? backend (subject.withData data) rule = failure? backend subject rule := by
  unfold failure?
  rw [same.stance, judge_withData same]
  rfl

mutual

theorem examine_withData : (node : RuleNode) → {rules : List Fields} → RuleNode.leaves node = .ok rules →
    (∀ rule ∈ rules, subject.Indifferent backend data rule) →
    examine backend (subject.withData data) node = examine backend subject node
  | .rule fields, _, leaves, same => by
    cases leaves
    exact failure?_withData (same fields List.mem_cons_self)
  | .group operator fields children, _, leaves, same => by
    unfold examine
    rw [collect_withData (stopsEarly fields) children leaves same]
  | .other, _, _, _ => rfl
  | .faulty fault, _, _, _ => rfl

theorem collect_withData (stops : Bool) : (children : List RuleNode) → {rules : List Fields} →
    RuleNode.leavesOfAll children = .ok rules → (∀ rule ∈ rules, subject.Indifferent backend data rule) →
    collect backend (subject.withData data) stops children = collect backend subject stops children
  | [], _, _, _ => rfl
  | child :: rest, _, leaves, same => by
    obtain ⟨first, here, leaves⟩ := Fault.of_bind_ok leaves
    obtain ⟨others, later, leaves⟩ := Fault.of_bind_ok leaves
    cases leaves
    rw [List.forall_mem_append] at same
    unfold collect
    rw [examine_withData child here same.1]
    simp only [collect_withData stops rest later same.2]

end

theorem evaluate_withData {operator : GroupOperator} {fields : Fields} {children : List RuleNode}
    {rules : List Fields} (leaves : RuleNode.leavesOfAll children = .ok rules)
    (same : ∀ rule ∈ rules, subject.Indifferent backend data rule) :
    evaluate backend (subject.withData data) operator fields children =
      evaluate backend subject operator fields children := by
  unfold evaluate
  rw [collect_withData (stopsEarly fields) children leaves same]

theorem checkRule_withData {rule : Fields} (same : subject.Indifferent backend data rule) :
    checkRule backend (subject.withData data) rule = checkRule backend subject rule := by
  unfold checkRule
  rw [same.stance, judge_withData same]
  rfl

theorem checkGroup_withData {operator : GroupOperator} {fields : Fields} {children : List RuleNode}
    {rules : List Fields} (leaves : RuleNode.leavesOfAll children = .ok rules)
    (same : ∀ rule ∈ rules, subject.Indifferent backend data rule) :
    checkGroup backend (subject.withData data) operator fields children =
      checkGroup backend subject operator fields children := by
  unfold checkGroup
  rw [evaluate_withData leaves same]
  rfl

theorem checkNode_withData {node : RuleNode} {rules : List Fields} (leaves : RuleNode.leaves node = .ok rules)
    (same : ∀ rule ∈ rules, subject.Indifferent backend data rule) :
    checkNode backend (subject.withData data) node = checkNode backend subject node := by
  cases node with
  | rule fields =>
    cases leaves
    exact checkRule_withData (same fields List.mem_cons_self)
  | group operator fields children => exact checkGroup_withData leaves same
  | other => rfl
  | faulty fault => rfl

theorem checkNodes_withData {nodes : List RuleNode} {rules : List Fields}
    (leaves : RuleNode.leavesOfAll nodes = .ok rules)
    (same : ∀ rule ∈ rules, subject.Indifferent backend data rule) :
    checkNodes backend (subject.withData data) nodes = checkNodes backend subject nodes := by
  induction nodes generalizing rules with
  | nil => rfl
  | cons node nodes ih =>
    obtain ⟨first, here, leaves⟩ := Fault.of_bind_ok leaves
    obtain ⟨others, later, leaves⟩ := Fault.of_bind_ok leaves
    cases leaves
    rw [List.forall_mem_append] at same
    unfold checkNodes
    rw [checkNode_withData here same.1, ih later same.2]

theorem checkAll_withData {nodes : List RuleNode} {rules : List Fields}
    (leaves : RuleNode.leavesOfAll nodes = .ok rules)
    (same : ∀ rule ∈ rules, subject.Indifferent backend data rule) :
    checkAll backend (subject.withData data) nodes = checkAll backend subject nodes := by
  unfold checkAll
  rw [checkNodes_withData leaves same]
  rfl

end Indifferent

section Field

variable {means : Rule.Means} (confined : means.callbacks.Local) {context : Context} {data : Value}

include confined in
/-- A rule is indifferent to data that agree on the fields that it reads. -/
theorem indifferent_of_covers {subject : Subject} {names : List Value} {rule : Fields}
    (agree : ∀ name ∈ names, (subject.context.withData data).value name = subject.context.value name)
    (covers : RuleNode.Covers names rule) (spelled : Condition.hasBareField (Fields.get rule "when") = false) :
    subject.Indifferent (Rule.check means) data rule where
  stance := by
    have admits := Condition.admits_withData agree covers spelled
    unfold Subject.stance Subject.withData
    simp only [admits]
  outcome := Rule.check_withData agree confined covers subject.value

/-- The conditions on the state of a field do not tell apart data that agree on their names. -/
theorem state_withData {fields : Fields} (spelled : ∀ slot ∈ Dependency.slots,
      Condition.hasBareField (Fields.get fields slot) = false)
    (agree : ∀ name ∈ Dependency.conditional fields, (context.withData data).value name = context.value name)
    (asked : Bool) :
    FieldState.ofFields (context.withData data).source fields asked =
      FieldState.ofFields context.source fields asked := by
  have holds (slot : String) (listed : slot ∈ Dependency.slots) (absent : Bool) :
      Condition.holdsOr absent (context.withData data).source (Fields.get fields slot) =
        Condition.holdsOr absent context.source (Fields.get fields slot) := by
    have alike : Alike
        (Condition.evaluate (context.withData data).source (Condition.ofValue (Fields.get fields slot)))
        (Condition.evaluate context.source (Condition.ofValue (Fields.get fields slot))) := by
      apply Condition.evaluate_alike_of_names
      · exact fun name member => .of_eq
          (agree _ (List.mem_flatMap.mpr ⟨slot, listed, List.mem_map_of_mem member⟩))
      · exact fun bare => absurd ((spelled slot listed).symm.trans bare) Bool.false_ne_true
    unfold Condition.holdsOr
    obtain ⟨answer, first, second⟩ | ⟨fault, other, first, second⟩ := alike.same_or_faults
    · rw [first, second]
    · rw [first, second]
  unfold FieldState.ofFields
  rw [holds "visibleIf" (by decide), holds "disabledIf" (by decide), holds "requiredIf" (by decide)]

theorem subjectOf_withData {fields : Fields} {path : Value} {isRequired : Bool}
    (own : (context.withData data).find? path = context.find? path) :
    subjectOf (context.withData data) path fields isRequired =
      (subjectOf context path fields isRequired).map (·.withData data) := by
  have value : fieldValue (context.withData data) path fields = fieldValue context path fields := by
    unfold fieldValue
    rw [own]
  unfold subjectOf
  rw [value]
  cases fieldValue context path fields with
  | error fault => rfl
  | ok value =>
    cases path.asText "split" with
    | error fault => rfl
    | ok text => rfl

include confined in
theorem checkField_withData {fields : Fields} {path : Value} {nodes : List RuleNode} {names : List Value}
    (listed : RuleNode.ofRules ((Fields.get fields "validationRules").orElse (.list [])) = .ok nodes)
    (extracted : RuleNode.references true nodes = .ok names)
    (slots : ∀ slot ∈ Dependency.slots, Condition.hasBareField (Fields.get fields slot) = false)
    (gates : ∀ rules, RuleNode.leavesOfAll nodes = .ok rules →
      ∀ rule ∈ rules, Condition.hasBareField (Fields.get rule "when") = false)
    (conditions : ∀ name ∈ Dependency.conditional fields, (context.withData data).value name = context.value name)
    (references : ∀ name ∈ names, (context.withData data).value name = context.value name)
    (own : (context.withData data).find? path = context.find? path) :
    checkField (Rule.check means) (context.withData data) fields path =
      checkField (Rule.check means) context fields path := by
  obtain ⟨rules, leaves, covers⟩ := RuleNode.covers_of_references extracted
  unfold checkField
  rw [listed, lift_ok_bind, lift_ok_bind]
  refine bind_congr fun asked => ?_
  simp only [state_withData slots conditions, subjectOf_withData own]
  split
  next => rfl
  next =>
    split
    next => rfl
    next =>
      cases known : subjectOf context path fields (FieldState.ofFields context.source fields asked).isRequired with
      | error fault => exact (lift_error_bind fault _).trans (lift_error_bind fault _).symm
      | ok subject =>
        refine checkAll_withData leaves fun rule member => ?_
        obtain ⟨_, _, _, rfl⟩ := subjectOf_ok known
        exact indifferent_of_covers confined references (covers rule member) (gates rules leaves rule member)

include confined in
/-- Checking a field gives the same report, scores and state of the backend, or the same fault, for all data
that agree on the names in its conditions and those that its rules refer to, and on the field itself; as
long as no condition has a bare field, whose name is not among them. -/
theorem checkItem_withData {fields : Fields} {parent : Value} {nodes : List RuleNode} {names : List Value}
    (listed : RuleNode.ofRules ((Fields.get fields "validationRules").orElse (.list [])) = .ok nodes)
    (extracted : RuleNode.references true nodes = .ok names)
    (slots : ∀ slot ∈ Dependency.slots, Condition.hasBareField (Fields.get fields slot) = false)
    (gates : ∀ rules, RuleNode.leavesOfAll nodes = .ok rules →
      ∀ rule ∈ rules, Condition.hasBareField (Fields.get rule "when") = false)
    (conditions : ∀ name ∈ Dependency.conditional fields, (context.withData data).value name = context.value name)
    (references : ∀ name ∈ names, (context.withData data).value name = context.value name)
    (own : ∀ path, Item.pathOf fields parent = .ok path →
      (context.withData data).has path = context.has path ∧ (context.withData data).value path = context.value path)
    (progress : Progress Rule.Session) :
    (checkItem (Rule.check means) (context.withData data) parent (.leaf fields)).run.run progress =
      (checkItem (Rule.check means) context parent (.leaf fields)).run.run progress := by
  have leaf : checkLeaf (Rule.check means) (context.withData data) fields parent =
      checkLeaf (Rule.check means) context fields parent := by
    unfold checkLeaf
    refine bind_congr fun sort => ?_
    split
    next =>
      cases place : Item.pathOf fields parent with
      | error fault => exact (lift_error_bind fault _).trans (lift_error_bind fault _).symm
      | ok path =>
        obtain ⟨present, value⟩ := own path place
        exact checkField_withData confined listed extracted slots gates conditions references
          (Context.find?_eq present value)
    next => rfl
  rw [checkItem, checkItem, leaf]

end Field

/-- The note of an order makes no difference to its total, which is checked against other fields. -/
theorem checkItem_withData_note :
    let order (note : String) : Value := .ofFields [("total", .int 10), ("limit", .int 20), ("net", .int 8),
      ("tax", .int 2), ("kind", .text "order"), ("note", .text note)]
    let sum : Value := .ofFields [("type", .text "crossField"), ("targetFields", .texts ["net", "tax"]),
      ("crossFieldValidator", .text "validateSumEquals"), ("when", .ofFields [("kind", .text "order")])]
    let limit : Value := .ofFields [("type", .text "compare"), ("comparisonTarget", .text "limit"),
      ("comparisonType", .text "<=")]
    let fields : Fields := [(.text "name", .text "total"),
      (.text "visibleIf", .ofFields [("field", .text "kind"), ("operator", .text "!="), ("value", .text "draft")]),
      (.text "validationRules", .list [limit, .ofFields [("and", .list [sum])]])]
    (checkItem (Rule.check { callbacks := { registry := Registry.standard } })
          ((Context.ofData (order "urgent")).withData (order "late")) (.text "") (.leaf fields)).run.run
        { backend := {} } =
      (checkItem (Rule.check { callbacks := { registry := Registry.standard } })
        (Context.ofData (order "urgent")) (.text "") (.leaf fields)).run.run { backend := {} } := by
  intro order sum limit fields
  have listed : RuleNode.ofRules ((Fields.get fields "validationRules").orElse (.list [])) =
      .ok (RuleNode.ofList [limit, .ofFields [("and", .list [sum])]]) := rfl
  have extracted : RuleNode.references true (RuleNode.ofList [limit, .ofFields [("and", .list [sum])]]) =
      .ok [.text "limit", .text "net", .text "tax", .text "kind"] := rfl
  have same (name : String) (member : name ∈ ["kind", "limit", "net", "tax", "total"]) :
      ((Context.ofData (order "urgent")).withData (order "late")).value (.text name) =
        (Context.ofData (order "urgent")).value (.text name) := by
    simp only [List.mem_cons, List.not_mem_nil, or_false] at member
    obtain rfl | rfl | rfl | rfl | rfl := member <;> rfl
  have gates : ∀ rules,
      RuleNode.leavesOfAll (RuleNode.ofList [limit, .ofFields [("and", .list [sum])]]) = .ok rules →
      ∀ rule ∈ rules, Condition.hasBareField (Fields.get rule "when") = false := by
    intro rules leaves
    cases leaves
    decide
  refine checkItem_withData Rule.standard_local listed extracted (by decide) gates ?_ ?_ ?_ { backend := {} }
  · intro name member
    obtain rfl : name = .text "kind" := List.mem_singleton.mp member
    exact same "kind" (by decide)
  · intro name member
    simp only [List.mem_cons, List.not_mem_nil, or_false] at member
    obtain rfl | rfl | rfl | rfl := member
    · exact same "limit" (by decide)
    · exact same "net" (by decide)
    · exact same "tax" (by decide)
    · exact same "kind" (by decide)
  · intro path place
    obtain rfl : .text "total" = path := Except.ok.inj place
    exact ⟨rfl, same "total" (by decide)⟩

end Pass

end FormRules

import FormRules.Rule.Backend

/-! Changes of a context that callbacks do not notice. A rule that calls one shows it the context, so neither does such a
rule notice the change, as long as the fields that it refers to keep their values. -/

namespace FormRules.Rule

/-- Whether no callback that a rule can refer to notices a change of its context, whatever parameters this has. -/
structure Callbacks.Overlook (callbacks : Callbacks) (change : Context → Context) : Prop where
  params : ∀ context params, (change context).withParams params = change (context.withParams params)
  same : ∀ reference callback, callbacks.resolve reference = .ok (some callback) → ∀ argument context,
    callback argument (change context) = callback argument context

theorem targetValues_congr {first second : Context} {targets : List Value}
    (agree : ∀ target ∈ targets, first.value target = second.value target) (values : Fields) :
    targetValues first values targets = targetValues second values targets := by
  induction targets generalizing values with
  | nil => rfl
  | cons target targets ih =>
    rw [List.forall_mem_cons] at agree
    unfold targetValues
    rw [agree.1]
    simp only [ih agree.2]

section

variable {callbacks : Callbacks} {change : Context → Context} (overlook : callbacks.Overlook change) (value : Value)
  {rule : Fields} (context : Context)

include overlook

theorem call_overlooking (reference argument : Value) (rule : Fields) (fallback : String) :
    call callbacks reference argument (change context) rule fallback =
      call callbacks reference argument context rule fallback := by
  unfold call
  cases found : callbacks.resolve reference with
  | error fault => rfl
  | ok callback? =>
    cases callback? with
    | none => rfl
    | some callback => simp only [Bind.bind, Except.bind, overlook.same reference callback found]

theorem checkCustom_overlooking (rule : Fields) :
    checkCustom callbacks value rule (change context) = checkCustom callbacks value rule context := by
  unfold checkCustom
  simp only [call_overlooking overlook]

theorem checkPlugin_overlooking (rule : Fields) :
    checkPlugin callbacks value rule (change context) = checkPlugin callbacks value rule context := by
  unfold checkPlugin
  simp only [overlook.params, call_overlooking overlook]

theorem checkCrossField_overlooking
    (agree : ∀ targets, ((Fields.get rule "targetFields").orElse (.list [])).items = .ok targets →
      ∀ target ∈ targets, (change context).value target = context.value target) :
    checkCrossField callbacks value rule (change context) = checkCrossField callbacks value rule context := by
  unfold checkCrossField
  cases given : (Fields.get rule "targetFields").truthy with
  | false => simp [given]
  | true =>
    have kept : (Fields.get rule "targetFields").orElse (.list []) = Fields.get rule "targetFields" := by
      rw [Value.orElse, if_pos given]
    rw [kept] at agree
    cases (Fields.get rule "crossFieldValidator").truthy with
    | false => simp only [Bool.not_false, Bool.or_true, if_true]
    | true =>
      cases crossReference? rule with
      | none => rfl
      | some reference =>
        cases listed : (Fields.get rule "targetFields").items with
        | error fault => simp only [listed, Bind.bind, Except.bind]
        | ok targets =>
          have values := targetValues_congr (agree targets listed) [(Callback.ownKey, value)]
          simp only [listed, Bind.bind, Except.bind, values, overlook.params, call_overlooking overlook]

end

end FormRules.Rule

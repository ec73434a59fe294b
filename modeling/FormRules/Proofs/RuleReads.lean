import FormRules.Proofs.ConditionReads
import FormRules.Proofs.OverlookedChanges

/-! What the standard backend reads of the data: the fields that a rule refers to, and no others as long as
callbacks go by their value and parameters. The outcome is the same, down to the text of its error, for
all data that agree on these fields. -/

namespace FormRules

namespace Callback

/-- A callback that goes by its value and the parameters of its context alone. -/
def Local (callback : Callback) : Prop :=
  ∀ (value : Value) (first second : Context), first.params = second.params →
    callback value first = callback value second

theorem Local.of_value {callback : Value → Except Fault Value} : Local fun value _ => callback value :=
  fun _ _ _ _ => rfl

theorem equalsParam_local : Local equalsParam := by
  intro value first second same
  unfold equalsParam param
  rw [same]

theorem valueIn_local (expected : Bool) : Local (valueIn expected) := by
  intro value first second same
  unfold valueIn paramValues param
  rw [same]

theorem containsAny_local : Local containsAny := by
  intro value first second same
  unfold containsAny paramValues param
  rw [same]

/-- No predefined callback looks at the data of a pass. -/
theorem predefined_local : ∀ item ∈ predefined, Local item.callback := by
  simp only [predefined, List.forall_mem_cons]
  exact ⟨.of_value, .of_value, .of_value, .of_value, .of_value, .of_value, .of_value, .of_value, .of_value,
    .of_value, equalsParam_local, valueIn_local true, valueIn_local false, containsAny_local, .of_value,
    .of_value, .of_value, .of_value, .of_value, List.forall_mem_nil _⟩

end Callback

namespace Rule

/-- Callbacks of which none that a rule can refer to looks at the data of a pass. -/
def Callbacks.Local (callbacks : Callbacks) : Prop :=
  ∀ reference callback, callbacks.resolve reference = .ok (some callback) → callback.Local

section Standard

open Callback (Predefined Entry)

private theorem mem_inserted {items : List Predefined} {known : Keyed Entry} {entry : Scalar × Entry}
    (member : entry ∈ items.foldl (fun entries item => Keyed.insert entries (.text item.name) item.entry) known) :
    entry ∈ known ∨ ∃ item ∈ items, entry.2 = item.entry := by
  induction items generalizing known with
  | nil => exact .inl member
  | cons item items ih =>
    obtain old | ⟨other, listed, same⟩ := ih member
    · exact (Keyed.mem_insert old).imp_right fun new => ⟨item, List.mem_cons_self, new⟩
    · exact .inr ⟨other, List.mem_cons_of_mem _ listed, same⟩

/-- The standard registry knows no other callbacks than the predefined ones. -/
theorem standard_find? {key : Scalar} {callback : Callback} (found : Registry.standard.find? key = some callback) :
    ∃ item ∈ Callback.predefined, callback = item.callback := by
  obtain ⟨entry, held, given⟩ := Option.bind_eq_some_iff.mp found
  obtain ⟨other, member, _⟩ := Keyed.exists_mem_of_find? held
  obtain old | ⟨item, listed, same⟩ := @mem_inserted _ [] _ member
  · cases old
  · rw [show entry = item.entry from same] at given
    exact ⟨item, listed, (Option.some.inj given).symm⟩

theorem standard_local : Callbacks.Local { registry := Registry.standard } := by
  intro reference callback resolved
  unfold Callbacks.resolve at resolved
  split at resolved
  next name =>
    obtain rfl := Option.some.inj (Except.ok.inj resolved)
    exact .of_value
  next =>
    obtain ⟨key, _, resolved⟩ := Fault.of_bind_ok resolved
    split at resolved
    next stored found =>
      obtain rfl := Option.some.inj (Except.ok.inj resolved)
      obtain ⟨item, listed, rfl⟩ := standard_find? found
      exact Callback.predefined_local item listed
    next =>
      obtain ⟨_, _, resolved⟩ := Fault.of_bind_ok resolved
      cases resolved

end Standard

section Reads

variable {context : Context} {data : Value}

/-- Callbacks that do not look at the data overlook other data. -/
theorem Callbacks.Local.overlook_withData {callbacks : Callbacks} (confined : callbacks.Local) (data : Value) :
    callbacks.Overlook (·.withData data) where
  params := fun context params => Context.withParams_withData context data params
  same := fun reference callback found argument _ => confined reference callback found argument _ _ rfl

theorem checkCompare_withData {rule : Fields} (value : Value)
    (agree : (Fields.get rule "comparisonTarget").truthy = true →
      (context.withData data).value (Fields.get rule "comparisonTarget") =
        context.value (Fields.get rule "comparisonTarget")) :
    checkCompare value rule (context.withData data) = checkCompare value rule context := by
  unfold checkCompare
  cases target : (Fields.get rule "comparisonTarget").truthy with
  | false => simp only [target, Bool.not_false, if_true]
  | true => simp only [agree target]

end Reads

end Rule

/-! What the extraction finds for a rule covers what the rule reads. -/

namespace RuleNode

/-- Whether a list has a value among its names. What is no text names nothing. -/
def Lists (references : List Value) (field : Value) : Prop := field.isText = true → field ∈ references

/-- A list of names that has all fields that a rule reads besides its own. -/
structure Covers (references : List Value) (rule : Fields) : Prop where
  compared : RuleKind.ofValue? (Fields.get rule "type") = some .compare →
    (Fields.get rule "comparisonTarget").truthy = true → Lists references (Fields.get rule "comparisonTarget")
  crossed : RuleKind.ofValue? (Fields.get rule "type") = some .crossField →
    ∀ targets, ((Fields.get rule "targetFields").orElse (.list [])).items = .ok targets →
      ∀ target ∈ targets, Lists references target
  gating : (Fields.get rule "when").truthy = true →
    ∀ name ∈ Condition.names (Fields.get rule "when"), .text name ∈ references

theorem Covers.mono {references more : List Value} {rule : Fields} (covers : Covers references rule)
    (among : ∀ field ∈ references, Lists more field) : Covers more rule where
  compared := fun kind given text => among _ (covers.compared kind given text) text
  crossed := fun kind targets listed target member text =>
    among _ (covers.crossed kind targets listed target member text) text
  gating := fun given name member => among _ (covers.gating given name member) rfl

theorem covers_of_referencesOf {rule : Fields} {references : List Value}
    (extracted : referencesOf true rule = .ok references) : Covers references rule := by
  unfold referencesOf at extracted
  simp only at extracted
  split at extracted
  next crosses =>
    obtain ⟨crossed, listed, extracted⟩ := Fault.of_bind_ok extracted
    cases extracted
    refine ⟨fun kind given _ => ?_, fun _ targets found target member _ => ?_, fun given name member => ?_⟩
    · simp [kind, given]
    · rw [listed] at found
      cases found
      exact List.mem_append_left _ (List.mem_append_right _ member)
    · rw [given]
      exact List.mem_append_right _ (List.mem_map_of_mem member)
  next other =>
    cases extracted
    refine ⟨fun kind given _ => ?_, fun kind => absurd (beq_iff_eq.mpr kind) other, fun given name member => ?_⟩
    · simp [kind, given]
    · rw [given]
      exact List.mem_append_right _ (List.mem_map_of_mem member)

theorem contains_text {values : List Value} {name : String} :
    Value.contains values (.text name) = true ↔ .text name ∈ values := by
  unfold Value.contains
  rw [List.any_eq_true]
  constructor
  · rintro ⟨value, member, same⟩
    rw [Value.coincides_text] at same
    exact Value.eq_of_same_text same ▸ member
  · exact fun member => ⟨_, member, by rw [Value.coincides_text, Value.same_text]; exact beq_self_eq_true name⟩

/-- Keeping each value once keeps all names. -/
theorem lists_addValues {values : List Value} {name : String} (known : List Value)
    (member : .text name ∈ known ∨ .text name ∈ values) : .text name ∈ values.foldl addValue known := by
  induction values generalizing known with
  | nil => simpa using member
  | cons first values ih =>
    refine ih (addValue known first) ?_
    have kept : .text name ∈ known ∨ .text name = first → .text name ∈ addValue known first := by
      unfold addValue
      split
      next held => exact fun either => either.elim id fun same => contains_text.mp (same ▸ held)
      next => exact fun either => List.mem_append.mpr (either.imp_right fun same => List.mem_singleton.mpr same)
    rw [List.mem_cons, ← or_assoc] at member
    exact member.imp_left kept

theorem covers_of_references {nodes : List RuleNode} {names : List Value}
    (extracted : references true nodes = .ok names) :
    ∃ rules, leavesOfAll nodes = .ok rules ∧ ∀ rule ∈ rules, Covers names rule := by
  obtain ⟨rules, leaves, extracted⟩ := Fault.of_bind_ok extracted
  obtain ⟨found, each, extracted⟩ := Fault.of_bind_ok extracted
  cases extracted
  refine ⟨rules, leaves, fun rule member => ?_⟩
  obtain ⟨references, listed, extracted⟩ := Fault.of_mapM_ok each member
  refine (covers_of_referencesOf extracted).mono fun field inside text => ?_
  obtain ⟨name, rfl⟩ := Value.isText_iff.mp text
  exact lists_addValues [] (.inr (List.mem_flatten.mpr ⟨references, listed, inside⟩))

end RuleNode

section Covered

variable {names : List Value} {context : Context} {data : Value}
  (agree : ∀ name ∈ names, (context.withData data).value name = context.value name)

include agree

theorem RuleNode.Lists.value_withData {field : Value} (listed : Lists names field) :
    (context.withData data).value field = context.value field := by
  by_cases text : field.isText = true
  · exact agree field (listed text)
  · exact Context.value_eq_of_not_text _ _ (Bool.eq_false_iff.mpr text)

/-- The standard backend cannot tell data apart that agree on the fields that a rule reads. -/
theorem Rule.check_withData {means : Means} (confined : means.callbacks.Local) {rule : Fields}
    (covers : RuleNode.Covers names rule) (value : Value) (session : Session) :
    check means value rule (context.withData data) session = check means value rule context session := by
  have overlook := confined.overlook_withData data
  unfold check
  simp only
  split
  next => rfl
  next kind =>
    rw [checkCompare_withData value fun given => (covers.compared kind given).value_withData agree]
  next => rw [checkCustom_overlooking overlook]
  next kind =>
    rw [checkCrossField_overlooking overlook value context fun targets listed target member =>
      (covers.crossed kind targets listed target member).value_withData agree]
  next => rw [checkPlugin_overlooking overlook]
  next => rfl
  next => rfl
  next => rfl

/-- Whether a rule applies is the same as well, unless its condition has a bare field. -/
theorem Condition.admits_withData {rule : Fields} (covers : RuleNode.Covers names rule)
    (spelled : hasBareField (Fields.get rule "when") = false) :
    admits (context.withData data).source (Fields.get rule "when") =
      admits context.source (Fields.get rule "when") := by
  unfold admits
  split
  next given =>
    have alike : Alike (evaluate (context.withData data).source (ofValue (Fields.get rule "when")))
        (evaluate context.source (ofValue (Fields.get rule "when"))) := by
      apply evaluate_alike_of_names
      · exact fun name member => .of_eq (agree _ (covers.gating given name member))
      · exact fun bare => absurd (spelled.symm.trans bare) Bool.false_ne_true
    obtain ⟨answer, first, second⟩ | ⟨fault, other, first, second⟩ := alike.same_or_faults
    · rw [first, second]
    · rw [first, second]
  next => rfl

end Covered

end FormRules

import FormRules.Form.Check
import FormRules.Proofs.KeyedEntries
import FormRules.Proofs.Messages

/-! What rules are like whose structure has been checked: each has one of the known types, and its messages and
the fields it refers to are named by texts. Nothing in them is at fault when they are taken apart. -/

namespace FormRules

namespace Form

theorem allows_iff {fields : Fields} {name : String} {passes : Value → Bool} : allows fields name passes = true ↔
    ∀ value, Keyed.find? fields (.text name) = some value → passes value = true := Option.all_eq_true ..

theorem fits_text {value : Value} (fits : Shape.text.fits value = true) : ∃ shown, value = .text shown := by
  unfold Shape.fits at fits
  split at fits <;> first | exact ⟨_, rfl⟩ | simp_all

/-- A field that may be left out and is a text is one or null. -/
theorem isMessage_of_allows {fields : Fields} {name : String} (allowed : allows fields name (Shape.fits .text) = true) :
    (Fields.get fields name).IsMessage := by
  unfold Fields.get
  cases found : Keyed.find? fields (.text name) with
  | none => exact .absent
  | some value =>
    obtain ⟨shown, rfl⟩ := fits_text (allows_iff.mp allowed value found)
    exact .text shown

theorem name_of_allowsName {fields : Fields} {name : String} {options : List String}
    (allowed : allowsName fields name options = true) :
    Fields.get fields name = .null ∨ ∃ given ∈ options, Fields.get fields name = .text given := by
  unfold Fields.get
  cases found : Keyed.find? fields (.text name) with
  | none => exact .inl rfl
  | some value =>
    have passed := allows_iff.mp allowed value found
    split at passed
    next given => exact .inr ⟨given, List.contains_iff_mem.mp passed, rfl⟩
    next => cases passed

theorem isTexts_of_isTextList {value : Value} (listed : isTextList value = true) : value.IsTexts := by
  unfold isTextList at listed
  split at listed
  next items =>
    induction items with
    | nil => exact ⟨[], rfl⟩
    | cons item items ih =>
      rw [List.all_cons, Bool.and_eq_true] at listed
      obtain ⟨text, rfl⟩ := fits_text listed.1
      obtain ⟨texts, rest⟩ := ih listed.2
      exact ⟨text :: texts, by rw [Value.list.inj rest]; rfl⟩
  next => cases listed

theorem areSoundNodes_iff {items : List Value} : areSoundNodes items = true ↔ ∀ item ∈ items, isSoundNode item = true := by
  induction items with
  | nil => simp [areSoundNodes]
  | cons item items ih => rw [areSoundNodes, Bool.and_eq_true, ih, List.forall_mem_cons]

/-- What is known of the fields of a rule. -/
structure SoundRule (fields : Fields) : Prop where
  kind : ∃ kind, RuleKind.ofValue? (Fields.get fields "type") = some kind
  message : (Fields.get fields "message").IsMessage
  target : (Fields.get fields "comparisonTarget").IsMessage
  targets : ((Fields.get fields "targetFields").orElse (.list [])).IsTexts

theorem soundRule_of_isSoundRule {fields : Fields} (sound : isSoundRule fields = true) : SoundRule fields := by
  simp only [isSoundRule, Bool.and_eq_true, List.all_cons, List.all_nil] at sound
  obtain ⟨⟨⟨⟨⟨⟨⟨⟨⟨⟨given, type⟩, message⟩, _⟩, _⟩, _, target, _⟩, _⟩, targets⟩, _⟩, _⟩, _⟩ := sound
  refine ⟨?_, isMessage_of_allows message, isMessage_of_allows target, ?_⟩
  · obtain ⟨value, found⟩ := Option.isSome_iff_exists.mp given
    have passed := allows_iff.mp type value found
    split at passed
    next name =>
      obtain ⟨entry, member, rfl⟩ := List.mem_map.mp (List.contains_iff_mem.mp passed)
      have known : (RuleKind.named.lookup entry.1).isSome = true :=
        List.lookup_isSome_iff.mpr ⟨entry, member, beq_self_eq_true _⟩
      rw [Fields.get, found]
      exact Option.isSome_iff_exists.mp known
    next => cases passed
  · exact Fields.get_orElse (fun value found => isTexts_of_isTextList (allows_iff.mp targets value found)) ⟨[], rfl⟩

/-- Whether all members that a field lists are sound, as far as they are known. -/
def Listed (members : Keyed Soundness) (name : String) : Prop :=
  ∀ soundness, Keyed.find? members (.text name) = some soundness → soundness.listed = true

/-- What is known of the fields of a group. -/
structure SoundGroup (fields : Fields) (members : Keyed Soundness) : Prop where
  untyped : Fields.has fields "type" = false
  operator : allowsName fields "operator" ["and", "or", "not"] = true
  rules : Listed members "rules"
  all : Listed members "and"
  any : Listed members "or"
  single : ∀ soundness, Keyed.find? members (.text "not") = some soundness → soundness.single = true
  own : (Fields.get fields "groupMessage").IsMessage
  message : (Fields.get fields "message").IsMessage

theorem soundGroup_of_isSoundGroup {fields : Fields} {members : Keyed Soundness}
    (sound : isSoundGroup fields members = true) : SoundGroup fields members := by
  simp only [isSoundGroup, Bool.and_eq_true, List.all_cons, List.all_nil, Option.all_eq_true] at sound
  obtain ⟨⟨⟨⟨⟨⟨⟨⟨untyped, operator⟩, rules⟩, all⟩, any⟩, single⟩, _⟩, own, message, _⟩, _⟩ := sound
  exact ⟨Bool.not_eq_true' _ ▸ untyped, operator, rules, all, any, single, isMessage_of_allows own,
    isMessage_of_allows message⟩

end Form

namespace RuleNode

/-- Rules and groups that the check of their structure lets through. -/
inductive Accepted : RuleNode → Prop where
  | rule {fields : Fields} (sound : Form.SoundRule fields) : Accepted (.rule fields)
  | group {operator : GroupOperator} {fields : Fields} {children : List RuleNode}
      (own : (Fields.get fields "groupMessage").IsMessage) (message : (Fields.get fields "message").IsMessage)
      (members : ∀ child ∈ children, Accepted child) : Accepted (.group operator fields children)
  | other : Accepted .other

/-- What a field holds is accepted as far as it is sound. -/
structure Held.Accepted (held : Held) (soundness : Form.Soundness) : Prop where
  listed : soundness.listed = true → ∀ node ∈ held.listed, node.Accepted
  single : soundness.single = true → held.single.Accepted

section Fields

variable {fields : Fields} {held : Keyed Held} {members : Keyed Form.Soundness}
  (known : Keyed.Matches Held.Accepted held members)

include known

theorem accepted_childrenOf (sound : Form.SoundGroup fields members) :
    ∀ child ∈ childrenOf fields held, child.Accepted := by
  have listed (name : String) (sound : Form.Listed members name) :
      ∀ node ∈ ((Keyed.find? held (.text name)).getD .nothing).listed, node.Accepted := by
    cases found : Keyed.find? held (.text name) with
    | none => exact List.forall_mem_nil _
    | some node =>
      obtain ⟨soundness, among, accepted⟩ := known name node found
      exact accepted.listed (sound soundness among)
  unfold childrenOf
  split
  · exact listed "rules" sound.rules
  · exact listed "or" sound.any
  · exact listed "and" sound.all
  · split
    · refine List.forall_mem_singleton.mpr ?_
      cases found : Keyed.find? held (.text "not") with
      | none => exact .other
      | some node =>
        obtain ⟨soundness, among, accepted⟩ := known "not" node found
        exact accepted.single (sound.single soundness among)
    · exact List.forall_mem_nil _

omit known in
theorem isRule_of_soundRule (sound : Form.SoundRule fields) : isRule fields = true := by
  obtain ⟨kind, named⟩ := sound.kind
  unfold isRule
  unfold RuleKind.ofValue? at named
  split at named
  next name shape => rw [shape, Value.isText]
  next => cases named

omit known in
theorem has_of_isRule (rule : isRule fields = true) : Fields.has fields "type" = true := by
  unfold isRule Fields.get at rule
  unfold Fields.has Keyed.has
  cases found : Keyed.find? fields (.text "type") with
  | none =>
    rw [found] at rule
    cases rule
  | some _ => rfl

omit known in
theorem spelled?_ok (sound : Form.allowsName fields "operator" ["and", "or", "not"] = true) :
    ∃ operator?, GroupOperator.spelled? fields = .ok operator? := by
  unfold GroupOperator.spelled?
  obtain absent | ⟨given, _, text⟩ := Form.name_of_allowsName sound
  · rw [absent]
    exact ⟨_, rfl⟩
  · rw [text]
    exact ⟨_, rfl⟩

theorem accepted_ofFields (sound : (Form.isSoundRule fields || Form.isSoundGroup fields members) = true) :
    (ofFields fields held).Accepted := by
  unfold ofFields
  split
  next rule =>
    obtain sound | sound := Bool.or_eq_true_iff.mp sound
    · exact .rule (Form.soundRule_of_isSoundRule sound)
    · have typed := has_of_isRule rule
      rw [(Form.soundGroup_of_isSoundGroup sound).untyped] at typed
      cases typed
  next other =>
    obtain sound | sound := Bool.or_eq_true_iff.mp sound
    · exact absurd (isRule_of_soundRule (Form.soundRule_of_isSoundRule sound)) other
    have sound := Form.soundGroup_of_isSoundGroup sound
    obtain ⟨operator?, spelled⟩ := spelled?_ok sound.operator
    obtain ⟨isGroup, told⟩ : ∃ answer, Group.isGroup fields = .ok answer := by
      unfold Group.isGroup
      rw [spelled]
      cases operator? <;> exact ⟨_, rfl⟩
    obtain ⟨operator, chosen⟩ : ∃ operator, Group.operator fields = .ok operator := by
      unfold Group.operator
      rw [spelled]
      cases operator? <;> exact ⟨_, rfl⟩
    rw [told, chosen]
    cases isGroup with
    | true => exact .group sound.own sound.message (accepted_childrenOf known sound)
    | false => exact .other

end Fields

mutual

theorem accepted_ofValue : (value : Value) → Form.isSoundNode value = true → (ofValue value).Accepted
  | .object fields, sound => accepted_ofFields (known_heldBy fields) sound
  | .scalar _, _ => .other
  | .list _, _ => .other
  | .handle _, _ => .other
termination_by structural value => value

theorem accepted_ofList : (items : List Value) → (∀ item ∈ items, Form.isSoundNode item = true) →
    ∀ node ∈ ofList items, node.Accepted
  | [], _ => List.forall_mem_nil _
  | item :: items, sound =>
    have sound := List.forall_mem_cons.mp sound
    List.forall_mem_cons.mpr ⟨accepted_ofValue item sound.1, accepted_ofList items sound.2⟩
termination_by structural items => items

theorem known_heldBy : (fields : List (Scalar × Value)) →
    Keyed.Matches Held.Accepted (heldBy fields) (Form.soundnessOf fields)
  | [] => .nil
  | (_, .list items) :: fields =>
    .cons ⟨fun sound => accepted_ofList items (Form.areSoundNodes_iff.mp sound), fun sound => nomatch sound⟩
      (known_heldBy fields)
  | (_, .object inner) :: fields =>
    .cons ⟨fun sound => (nomatch sound), fun sound => accepted_ofValue (.object inner) sound⟩ (known_heldBy fields)
  | (_, .scalar scalar) :: fields =>
    .cons ⟨fun sound => (nomatch sound), fun sound => accepted_ofValue (.scalar scalar) sound⟩ (known_heldBy fields)
  | (_, .handle name) :: fields =>
    .cons ⟨fun sound => (nomatch sound), fun sound => accepted_ofValue (.handle name) sound⟩ (known_heldBy fields)
termination_by structural fields => fields

end

theorem leavesOfAll_of_each {good : Fields → Prop} {nodes : List RuleNode}
    (each : ∀ node ∈ nodes, Yields node.leaves fun rules => ∀ rule ∈ rules, good rule) :
    Yields (leavesOfAll nodes) fun rules => ∀ rule ∈ rules, good rule := by
  induction nodes with
  | nil => exact .ok (List.forall_mem_nil _)
  | cons node nodes ih =>
    obtain ⟨here, later⟩ := List.forall_mem_cons.mp each
    refine here.bind fun first all => (ih later).bind fun rest others => .ok ?_
    exact List.forall_mem_append.mpr ⟨all, others⟩

theorem leaves_yields {node : RuleNode} (accepted : node.Accepted) :
    Yields node.leaves fun rules => ∀ rule ∈ rules, Form.SoundRule rule := by
  induction accepted with
  | rule sound => exact .ok (List.forall_mem_singleton.mpr sound)
  | group _ _ _ ih => exact leavesOfAll_of_each ih
  | other => exact .ok (List.forall_mem_nil _)

theorem leaves_of_leavesOfAll {nodes : List RuleNode} {rules : List Fields} (taken : leavesOfAll nodes = .ok rules)
    {node : RuleNode} (member : node ∈ nodes) : ∃ own, node.leaves = .ok own ∧ ∀ rule ∈ own, rule ∈ rules := by
  induction nodes generalizing rules with
  | nil => cases member
  | cons first nodes ih =>
    obtain ⟨here, leaves, taken⟩ := Fault.of_bind_ok taken
    obtain ⟨later, others, taken⟩ := Fault.of_bind_ok taken
    cases taken
    cases member with
    | head => exact ⟨here, leaves, fun rule listed => List.mem_append_left _ listed⟩
    | tail _ member =>
      obtain ⟨own, ended, among⟩ := ih others member
      exact ⟨own, ended, fun rule listed => List.mem_append_right _ (among rule listed)⟩

/-- Whether all rules that a node is taken apart into are good. -/
def Consists (good : Fields → Prop) (node : RuleNode) : Prop :=
  Ensures node.leaves fun rules => ∀ rule ∈ rules, good rule

section Consists

variable {good : Fields → Prop} {nodes children : List RuleNode}

theorem leavesOfAll_of_consists (each : ∀ node ∈ nodes, node.Consists good) :
    Ensures (leavesOfAll nodes) fun rules => ∀ rule ∈ rules, good rule := by
  induction nodes with
  | nil => exact .ok (List.forall_mem_nil _)
  | cons node nodes ih =>
    obtain ⟨here, later⟩ := List.forall_mem_cons.mp each
    refine here.bind fun first all => (ih later).bind fun rest others => .ok ?_
    exact List.forall_mem_append.mpr ⟨all, others⟩

theorem consists_of_leavesOfAll {rules : List Fields} (taken : leavesOfAll nodes = .ok rules)
    (all : ∀ rule ∈ rules, good rule) : ∀ node ∈ nodes, node.Consists good := by
  intro node member others ended rule listed
  obtain ⟨own, leaves, among⟩ := leaves_of_leavesOfAll taken member
  rw [leaves] at ended
  cases ended
  exact all rule (among rule listed)

theorem Consists.of_group (accepted : ∀ child ∈ children, child.Accepted) {operator : GroupOperator} {fields : Fields}
    (consists : (RuleNode.group operator fields children).Consists good) : ∀ child ∈ children, child.Consists good := by
  obtain ⟨rules, taken, _⟩ := leavesOfAll_of_each fun child member => leaves_yields (accepted child member)
  exact consists_of_leavesOfAll taken (consists rules taken)

end Consists

section Nodes

variable {nodes : List RuleNode} (accepted : ∀ node ∈ nodes, node.Accepted)

include accepted

theorem leavesOfAll_yields : Yields (leavesOfAll nodes) fun rules => ∀ rule ∈ rules, Form.SoundRule rule :=
  leavesOfAll_of_each fun node member => leaves_yields (accepted node member)

theorem hasKind_yields (kind : RuleKind) : Yields (hasKind nodes kind) fun _ => True :=
  (leavesOfAll_yields accepted).bind fun _ _ => .ok trivial

omit accepted in
theorem referencesOf_yields (withConditions : Bool) {rule : Fields} (sound : Form.SoundRule rule) :
    Yields (referencesOf withConditions rule) fun names => ∀ name ∈ names, ∃ text, name = .text text := by
  have plain (names : List String) : ∀ name ∈ names.map Value.text, ∃ text, name = .text text := by
    intro name member
    obtain ⟨text, _, rfl⟩ := List.mem_map.mp member
    exact ⟨text, rfl⟩
  have compared (asked : Bool) : ∀ name ∈ (if asked && (Fields.get rule "comparisonTarget").truthy then
      [Fields.get rule "comparisonTarget"] else []), ∃ text, name = .text text := by
    split
    next asked =>
      exact List.forall_mem_singleton.mpr (sound.target.text_of_truthy (Bool.and_eq_true_iff.mp asked).2)
    next => exact List.forall_mem_nil _
  have conditional : ∀ name ∈ (if withConditions && (Fields.get rule "when").truthy then
      (Condition.names (Fields.get rule "when")).map Value.text else []), ∃ text, name = .text text := by
    split
    · exact plain _
    · exact List.forall_mem_nil _
  obtain ⟨texts, targets⟩ := sound.targets
  unfold referencesOf
  simp only [targets]
  split
  · exact .ok (List.forall_mem_append.mpr ⟨List.forall_mem_append.mpr ⟨compared _, plain texts⟩, conditional⟩)
  · exact .ok (List.forall_mem_append.mpr
      ⟨List.forall_mem_append.mpr ⟨compared _, List.forall_mem_nil _⟩, conditional⟩)

omit accepted in
theorem forall_mem_addValues {property : Value → Prop} {values more : List Value}
    (first : ∀ value ∈ values, property value) (all : ∀ value ∈ more, property value) :
    ∀ value ∈ more.foldl addValue values, property value := by
  induction more generalizing values with
  | nil => exact first
  | cons value more ih =>
    obtain ⟨here, later⟩ := List.forall_mem_cons.mp all
    refine ih ?_ later
    unfold addValue
    split
    · exact first
    · exact List.forall_mem_append.mpr ⟨first, List.forall_mem_singleton.mpr here⟩

theorem references_yields (withConditions : Bool) :
    Yields (references withConditions nodes) fun names => ∀ name ∈ names, ∃ text, name = .text text := by
  refine (leavesOfAll_yields accepted).bind fun rules sound => ?_
  refine (Yields.mapM fun rule member => referencesOf_yields withConditions (sound rule member)).bind fun names all => ?_
  refine .ok (forall_mem_addValues (List.forall_mem_nil _) fun name member => ?_)
  obtain ⟨list, among, listed⟩ := List.mem_flatten.mp member
  exact all.2 list among name listed

end Nodes

end RuleNode

end FormRules

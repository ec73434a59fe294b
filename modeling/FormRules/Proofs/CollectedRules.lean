import FormRules.Proofs.AcceptedRules
import FormRules.Proofs.ConditionReads

/-! Taking groups of rules apart. Of a group that lists members under several names only those under the first of
them count, so that no rule is left out just as long as each group lists its members under one name. -/

namespace FormRules

theorem Fields.find?_of_get {fields : Fields} {name : String} {value : Value} (given : Fields.get fields name = value)
    (present : value ≠ .null) : Keyed.find? fields (.text name) = some value := by
  unfold Fields.get at given
  cases found : Keyed.find? fields (.text name) with
  | none =>
    rw [found] at given
    exact absurd given.symm present
  | some other =>
    rw [found] at given
    exact congrArg some given

namespace Group

/-- The names under which a group lists its members, each before those that do not count beside it. -/
def memberNames : List String := ["rules", "or", "and", "not"]

/-- What stands under such a name: the items of a list, or a single member. -/
def partOf : Value → List Value
  | .list items => items
  | member => [member]

/-- What a group has under each of the names. -/
def parts (fields : Fields) : List (List Value) :=
  memberNames.filterMap fun name => (Keyed.find? fields (.text name)).map partOf

/-- The members that count. -/
def used (fields : Fields) : List Value := (parts fields).headD []

/-- All members, whether or not they count. -/
def members (fields : Fields) : List Value := (parts fields).flatten

/-- What is listed under the only name counts. -/
theorem used_eq_members {fields : Fields} (single : (parts fields).length ≤ 1) : used fields = members fields := by
  unfold used members
  match parts fields, single with
  | [], _ => rfl
  | [part], _ => exact (List.append_nil part).symm

theorem used_subset (fields : Fields) : used fields ⊆ members fields := by
  unfold used members
  cases parts fields with
  | nil => exact List.nil_subset _
  | cons part parts => exact List.subset_append_left part parts.flatten

theorem exists_of_mem_members {fields : Fields} {member : Value} (listed : member ∈ members fields) :
    ∃ name ∈ memberNames, ∃ value, Keyed.find? fields (.text name) = some value ∧ member ∈ partOf value := by
  obtain ⟨part, given, inside⟩ := List.mem_flatten.mp listed
  obtain ⟨name, known, found⟩ := List.mem_filterMap.mp given
  obtain ⟨value, held, rfl⟩ := Option.map_eq_some_iff.mp found
  exact ⟨name, known, value, held, inside⟩

end Group

namespace Form

/-- How sound a value is as what a group has under a name. -/
def soundnessIn : Value → Soundness
  | .list items => ⟨false, areSoundNodes items⟩
  | value => ⟨isSoundNode value, false⟩

theorem find?_soundnessOf (fields : Fields) (key : Scalar) :
    Keyed.find? (soundnessOf fields) key = (Keyed.find? fields key).map soundnessIn := by
  induction fields with
  | nil => rfl
  | cons field fields ih =>
    obtain ⟨name, value⟩ := field
    have here : soundnessOf ((name, value) :: fields) = (name, soundnessIn value) :: soundnessOf fields := by
      cases value <;> rfl
    rw [here, Keyed.find?_cons, Keyed.find?_cons, ih]
    split <;> rfl

section Group

variable {fields : Fields} (sound : isSoundGroup fields (soundnessOf fields) = true)

include sound

theorem list_of_isSoundGroup {name : String} (known : name ∈ ["rules", "or", "and"]) {value : Value}
    (found : Keyed.find? fields (.text name) = some value) :
    ∃ items, value = .list items ∧ areSoundNodes items = true := by
  have group := soundGroup_of_isSoundGroup sound
  have listed : Listed (soundnessOf fields) name := by
    simp only [List.mem_cons, List.not_mem_nil, or_false] at known
    obtain rfl | rfl | rfl := known
    · exact group.rules
    · exact group.any
    · exact group.all
  have passed := listed (soundnessIn value) (by rw [find?_soundnessOf, found]; rfl)
  unfold soundnessIn at passed
  split at passed
  next items => exact ⟨items, rfl, passed⟩
  next => cases passed

theorem object_of_isSoundGroup {value : Value} (found : Keyed.find? fields (.text "not") = some value) :
    ∃ inner, value = .object inner ∧ isSoundNode (.object inner) = true := by
  have passed := (soundGroup_of_isSoundGroup sound).single (soundnessIn value) (by rw [find?_soundnessOf, found]; rfl)
  cases value with
  | object inner => exact ⟨inner, rfl, passed⟩
  | scalar | list | handle => cases passed

/-- All members of a group that is accepted are accepted, also those that do not count. -/
theorem isSoundNode_of_mem_members : ∀ member ∈ Group.members fields, isSoundNode member = true := by
  intro member listed
  obtain ⟨name, known, value, found, inside⟩ := Group.exists_of_mem_members listed
  have known : name ∈ ["rules", "or", "and"] ++ ["not"] := known
  obtain several | single := List.mem_append.mp known
  · obtain ⟨items, rfl, all⟩ := list_of_isSoundGroup sound several found
    exact areSoundNodes_iff.mp all member inside
  · obtain rfl := List.mem_singleton.mp single
    obtain ⟨inner, rfl, node⟩ := object_of_isSoundGroup sound found
    obtain rfl := List.mem_singleton.mp inside
    exact node

/-- The rules that a group which is accepted lists are the members that count. -/
theorem rules_eq_used : Group.rules fields = Group.used fields := by
  unfold Group.rules Group.used Group.parts Group.memberNames Fields.get
  cases listed : Keyed.find? fields (.text "rules") with
  | some value =>
    obtain ⟨items, rfl, _⟩ := list_of_isSoundGroup sound (by decide) listed
    simp [listed, Group.partOf]
  | none =>
    cases any : Keyed.find? fields (.text "or") with
    | some value =>
      obtain ⟨items, rfl, _⟩ := list_of_isSoundGroup sound (by decide) any
      simp [listed, any, Group.partOf]
    | none =>
      cases all : Keyed.find? fields (.text "and") with
      | some value =>
        obtain ⟨items, rfl, _⟩ := list_of_isSoundGroup sound (by decide) all
        simp [listed, any, all, Group.partOf]
      | none =>
        cases single : Keyed.find? fields (.text "not") with
        | some value =>
          obtain ⟨inner, rfl, node⟩ := object_of_isSoundGroup sound single
          have given : (Value.object inner).truthy = true := by
            cases inner with
            | nil => cases node
            | cons => rfl
          simp [listed, any, all, single, given, Group.partOf]
        | none => simp [listed, any, all, single, Value.truthy]

/-- What is accepted as a group is taken for one. -/
theorem isGroup_of_isSoundGroup : Group.isGroup fields = .ok true := by
  have untyped := (soundGroup_of_isSoundGroup sound).untyped
  have operator := (soundGroup_of_isSoundGroup sound).operator
  have shape := (Bool.and_eq_true_iff.mp sound).2
  unfold Group.isGroup GroupOperator.spelled? Fields.get
  cases found : Keyed.find? fields (.text "operator") with
  | none =>
    have unspelled : Fields.has fields "operator" = false := by rw [Fields.has, Keyed.has, found]; rfl
    rw [unspelled, Bool.false_and, Bool.false_or] at shape
    simp only [List.any_cons, List.any_nil, Bool.or_false] at shape
    have named : (Fields.has fields "and" || Fields.has fields "or" || Fields.has fields "not") = true := by
      rw [Bool.or_assoc, shape]
    rw [named, untyped]
    rfl
  | some value =>
    have passed := allows_iff.mp operator value found
    split at passed
    next given =>
      have known := List.contains_iff_mem.mp passed
      simp only [List.mem_cons, List.not_mem_nil, or_false] at known
      obtain rfl | rfl | rfl := known <;> rfl
    next => cases passed

end Group

end Form

namespace RuleNode

/-- What a field of a group holds, as nodes. -/
def heldIn : Value → Held
  | .list items => ⟨ofList items, .other⟩
  | value => ⟨[], ofValue value⟩

theorem find?_heldBy (fields : Fields) (key : Scalar) :
    Keyed.find? (heldBy fields) key = (Keyed.find? fields key).map heldIn := by
  induction fields with
  | nil => rfl
  | cons field fields ih =>
    obtain ⟨name, value⟩ := field
    have here : heldBy ((name, value) :: fields) = (name, heldIn value) :: heldBy fields := by cases value <;> rfl
    rw [here, Keyed.find?_cons, Keyed.find?_cons, ih]
    split <;> rfl

/-- The children of a group are the nodes of the rules that it lists. -/
theorem childrenOf_heldBy (fields : Fields) : childrenOf fields (heldBy fields) = ofList (Group.rules fields) := by
  have listed {name : String} {items : List Value} (given : Fields.get fields name = .list items) :
      ((Keyed.find? (heldBy fields) (.text name)).getD .nothing).listed = ofList items := by
    rw [find?_heldBy, Fields.find?_of_get given nofun]
    rfl
  have single (given : (Fields.get fields "not").truthy = true) :
      ((Keyed.find? (heldBy fields) (.text "not")).getD .nothing).single = ofValue (Fields.get fields "not") := by
    rw [find?_heldBy, Fields.find?_of_get rfl fun absent => by rw [absent] at given; cases given]
    cases Fields.get fields "not" <;> rfl
  unfold childrenOf Group.rules
  split
  next given => exact listed given
  next given _ => exact listed given
  next given _ _ => exact listed given
  next =>
    by_cases given : (Fields.get fields "not").truthy = true
    · simp only [given, single given, if_true, ofList]
    · simp only [given, if_false, Bool.false_eq_true, ofList]

/-- The rules that are collected from rules and groups, in order, if of each group some members are taken. -/
inductive Collects (taken : Fields → List Value) : List Value → List Fields → Prop where
  | nil : Collects taken [] []
  | rule {fields : Fields} {rest : List Value} {rules : List Fields} (typed : Fields.has fields "type" = true)
      (later : Collects taken rest rules) : Collects taken (.object fields :: rest) (fields :: rules)
  | group {fields : Fields} {rest : List Value} {inside rules : List Fields}
      (untyped : Fields.has fields "type" = false) (members : Collects taken (taken fields) inside)
      (later : Collects taken rest rules) : Collects taken (.object fields :: rest) (inside ++ rules)

/-- Rules, and groups that list their members under one name, at any depth. -/
inductive Unmixed : Value → Prop where
  | rule {fields : Fields} (typed : Fields.has fields "type" = true) : Unmixed (.object fields)
  | group {fields : Fields} (untyped : Fields.has fields "type" = false) (single : (Group.parts fields).length ≤ 1)
      (members : ∀ member ∈ Group.members fields, Unmixed member) : Unmixed (.object fields)

namespace Collects

variable {taken : Fields → List Value} {items : List Value} {rules : List Fields}

theorem unique (collects : Collects taken items rules) {others : List Fields} (again : Collects taken items others) :
    others = rules := by
  induction collects generalizing others with
  | nil =>
    cases again
    rfl
  | rule typed _ ih =>
    cases again with
    | rule _ later => rw [ih later]
    | group untyped => cases typed.symm.trans untyped
  | group untyped _ _ here ih =>
    cases again with
    | rule typed => cases typed.symm.trans untyped
    | group _ members later => rw [here members, ih later]

/-- If groups list their members under one name, then those that count are all. -/
theorem of_unmixed (collects : Collects Group.used items rules) (unmixed : ∀ item ∈ items, Unmixed item) :
    Collects Group.members items rules := by
  induction collects with
  | nil => exact .nil
  | rule typed _ ih => exact .rule typed (ih (List.forall_mem_cons.mp unmixed).2)
  | group untyped _ _ here ih =>
    obtain ⟨first, rest⟩ := List.forall_mem_cons.mp unmixed
    cases first with
    | rule typed => cases typed.symm.trans untyped
    | group _ single members =>
      rw [Group.used_eq_members single] at here
      exact .group untyped (here members) (ih rest)

theorem append {more : List Value} {others : List Fields} (collects : Collects taken items rules)
    (later : Collects taken more others) : Collects taken (items ++ more) (rules ++ others) := by
  induction collects with
  | nil => exact later
  | rule typed _ ih => exact .rule typed ih
  | group untyped members _ _ ih =>
    rw [List.append_assoc]
    exact .group untyped members ih

end Collects

theorem collects_ofList_of_each {items : List Value}
    (each : ∀ item ∈ items, Yields (ofValue item).leaves (Collects Group.used [item])) :
    Yields (leavesOfAll (ofList items)) (Collects Group.used items) := by
  induction items with
  | nil => exact .ok .nil
  | cons item items ih =>
    obtain ⟨here, later⟩ := List.forall_mem_cons.mp each
    exact here.bind fun _ first => (ih later).bind fun _ rest => .ok (first.append rest)

/-- A group that is accepted is taken apart into the rules of the members that count. -/
theorem leaves_ofValue_group {fields : Fields} (sound : Form.isSoundGroup fields (Form.soundnessOf fields) = true) :
    (ofValue (.object fields)).leaves = leavesOfAll (ofList (Group.used fields)) := by
  have group := Form.soundGroup_of_isSoundGroup sound
  have other : isRule fields = false := Bool.eq_false_iff.mpr fun rule =>
    Bool.false_ne_true (group.untyped.symm.trans (has_of_isRule rule))
  obtain ⟨operator?, spelled⟩ := spelled?_ok group.operator
  obtain ⟨operator, chosen⟩ : ∃ operator, Group.operator fields = .ok operator := by
    unfold Group.operator
    rw [spelled]
    cases operator? <;> exact ⟨_, rfl⟩
  have node : ofValue (.object fields) = .group operator fields (childrenOf fields (heldBy fields)) := by
    rw [ofValue, ofFields, other, Form.isGroup_of_isSoundGroup sound, chosen]
    rfl
  rw [node, childrenOf_heldBy, Form.rules_eq_used sound, leaves]

/-- What is accepted as a rule or group is taken apart, alone and in a list. -/
theorem collects_ofValue (value : Value) :
    (Form.isSoundNode value = true → Yields (ofValue value).leaves (Collects Group.used [value])) ∧
      ∀ item ∈ Group.partOf value, Form.isSoundNode item = true →
        Yields (ofValue item).leaves (Collects Group.used [item]) := by
  -- the members of a group can be two levels down, in a list, so of a list the same is said of its items
  induction value using Value.nested_induction with
  | scalar | handle => exact ⟨nofun, List.forall_mem_singleton.mpr nofun⟩
  | list items ih => exact ⟨nofun, fun item member => (ih item member).1⟩
  | object fields ih =>
    suffices collected : Form.isSoundNode (.object fields) = true →
        Yields (ofValue (.object fields)).leaves (Collects Group.used [.object fields]) from
      ⟨collected, List.forall_mem_singleton.mpr collected⟩
    intro sound
    obtain rule | group := Bool.or_eq_true_iff.mp sound
    · have typed := isRule_of_soundRule (Form.soundRule_of_isSoundRule rule)
      have node : ofValue (.object fields) = .rule fields := by
        rw [ofValue, ofFields, typed]
        rfl
      rw [node, leaves]
      exact .ok (.rule (has_of_isRule typed) .nil)
    · rw [leaves_ofValue_group group]
      have each : ∀ member ∈ Group.used fields, Yields (ofValue member).leaves (Collects Group.used [member]) := by
        intro member counts
        have listed := Group.used_subset fields counts
        obtain ⟨_, _, value, found, inside⟩ := Group.exists_of_mem_members listed
        obtain ⟨_, held, _⟩ := Keyed.exists_mem_of_find? found
        exact (ih _ held).2 member inside (Form.isSoundNode_of_mem_members group member listed)
      refine (collects_ofList_of_each each).weaken fun rules collects => ?_
      rw [← List.append_nil rules]
      exact .group (Form.soundGroup_of_isSoundGroup group).untyped collects .nil

/-- Rules and groups that are accepted are taken apart into the rules among them and those among the members that
count, at any depth, in order and each as often as it is there. If no group lists members under several names, these
are all rules that are there. -/
theorem leavesOfAll_collects {items : List Value} (sound : Form.areSoundNodes items = true) :
    ∃ rules, leavesOfAll (ofList items) = .ok rules ∧ (∀ others, Collects Group.used items others ↔ others = rules) ∧
      ((∀ item ∈ items, Unmixed item) → ∀ others, Collects Group.members items others ↔ others = rules) := by
  obtain ⟨rules, taken, collects⟩ := collects_ofList_of_each fun item member =>
    (collects_ofValue item).1 (Form.areSoundNodes_iff.mp sound item member)
  refine ⟨rules, taken, fun others => ⟨collects.unique, fun same => same ▸ collects⟩, fun unmixed others => ?_⟩
  have all := collects.of_unmixed unmixed
  exact ⟨all.unique, fun same => same ▸ all⟩

/-- A group in a group, one under its operator's name and one beside it, and a rule that is there twice. -/
theorem leavesOfAll_collects_nested :
    let rule (type : String) : Fields := [(.text "type", .text type)]
    let either : Value := .ofFields [("or", .list [.object (rule "email"), .object (rule "numeric")])]
    let both : Value := .ofFields [("and", .list [either, .ofFields [("not", .object (rule "email"))]])]
    let neither : Value := .ofFields [("operator", .text "not"), ("rules", .list [either])]
    let items := [both, .object (rule "required"), neither]
    let rules := [rule "email", rule "numeric", rule "email", rule "required", rule "email", rule "numeric"]
    Form.areSoundNodes items = true ∧ (∀ item ∈ items, Unmixed item) ∧ leavesOfAll (ofList items) = .ok rules ∧
      Collects Group.members items rules := by
  intro rule either both neither items rules
  have sound : Form.areSoundNodes items = true := by decide +kernel
  have leaf (type : String) : Unmixed (.object (rule type)) := .rule rfl
  have group {fields : Fields} (untyped : Fields.has fields "type" = false) {part : List Value}
      (parts : Group.parts fields = [part]) (members : ∀ member ∈ part, Unmixed member) : Unmixed (.object fields) := by
    refine .group untyped (by rw [parts]; exact Nat.le_refl 1) ?_
    rw [Group.members, parts]
    simpa using members
  have first : Unmixed either := group rfl rfl (List.forall_mem_cons.mpr ⟨leaf _, List.forall_mem_singleton.mpr (leaf _)⟩)
  have negated : Unmixed (.ofFields [("not", .object (rule "email"))]) :=
    group rfl rfl (List.forall_mem_singleton.mpr (leaf _))
  have unmixed : ∀ item ∈ items, Unmixed item := by
    refine List.forall_mem_cons.mpr ⟨?_, List.forall_mem_cons.mpr ⟨leaf _, List.forall_mem_singleton.mpr ?_⟩⟩
    · exact group rfl rfl (List.forall_mem_cons.mpr ⟨first, List.forall_mem_singleton.mpr negated⟩)
    · exact group rfl rfl (List.forall_mem_singleton.mpr first)
  obtain ⟨found, taken, _, all⟩ := leavesOfAll_collects sound
  have given : leavesOfAll (ofList items) = .ok rules := rfl
  obtain rfl := Except.ok.inj (taken.symm.trans given)
  exact ⟨sound, unmixed, given, (all unmixed _).mpr rfl⟩

/-- Of a group that lists members under both operators those under "and" are left out. -/
theorem leavesOfAll_mixed :
    let rule (type : String) : Fields := [(.text "type", .text type)]
    let items := [.ofFields [("and", .list [.object (rule "required")]), ("or", .list [.object (rule "email")])]]
    Form.areSoundNodes items = true ∧ Collects Group.members items [rule "email", rule "required"] ∧
      leavesOfAll (ofList items) = .ok [rule "email"] := by
  intro rule items
  refine ⟨by decide +kernel, ?_, rfl⟩
  show Collects Group.members items ([rule "email", rule "required"] ++ [])
  exact .group rfl (.rule rfl (.rule rfl .nil)) .nil

end RuleNode

end FormRules

import FormRules.Proofs.GroupReading

/-! The verdict on a group in which any group may stop at its first failure. A group that stops has met one failure
at most: it fails if that is a nested group, and otherwise its operator decides on one failure among all members. An
evaluation that ends in a fault has joined messages of which one is no text. -/

namespace FormRules

/-- The reading of a group with some members that all hold, or of which the first one to fail is a group or not. -/
def GroupOperator.stoppedReading (operator : GroupOperator) (members : Nat) : Option Bool → Bool
  | none => operator.reading (List.replicate members true)
  | some true => false
  | some false =>
    match operator with
    | .and => false
    | .or => members != 1
    | .not => true

namespace RuleNode

def isGroup : RuleNode → Bool
  | .group .. => true
  | _ => false

section Reading

variable (judgement : Judgement) (subject : Subject)

mutual

/-- The Boolean reading of a tree whose groups may stop early. -/
def stoppedReading : RuleNode → Bool
  | .rule fields => subject.isExempt fields || (judgement subject.value fields subject.context).valid
  | .group operator fields children =>
    if Pass.stopsEarly fields then operator.stoppedReading children.length (firstFailing? children)
    else operator.reading (stoppedReadings children)
  | .other => true
  | .faulty _ => true

def stoppedReadings : List RuleNode → List Bool
  | [] => []
  | child :: rest => stoppedReading child :: stoppedReadings rest

/-- Whether the first member that fails is a group, if one fails. -/
def firstFailing? : List RuleNode → Option Bool
  | [] => none
  | child :: rest => if stoppedReading child then firstFailing? rest else some child.isGroup

end

theorem stoppedReadings_eq_map (nodes : List RuleNode) :
    stoppedReadings judgement subject nodes = nodes.map (stoppedReading judgement subject) := by
  induction nodes with
  | nil => rfl
  | cons node nodes ih => rw [stoppedReadings, ih, List.map_cons]

theorem length_stoppedReadings (nodes : List RuleNode) :
    (stoppedReadings judgement subject nodes).length = nodes.length := by
  rw [stoppedReadings_eq_map, List.length_map]

mutual

theorem stoppedReading_withoutStops : (node : RuleNode) →
    stoppedReading judgement subject (withoutStops node) = reading judgement subject node
  | .rule _ | .other | .faulty _ => by rw [withoutStops, stoppedReading, reading]
  | .group operator fields children => by
    have members := stoppedReadings_allWithoutStops children
    rw [withoutStops, stoppedReading, stopsEarly_goingOn, reading, members]
    rfl

theorem stoppedReadings_allWithoutStops : (nodes : List RuleNode) →
    stoppedReadings judgement subject (allWithoutStops nodes) = readings judgement subject nodes
  | [] => rfl
  | node :: nodes => by
    have first := stoppedReading_withoutStops node
    have rest := stoppedReadings_allWithoutStops nodes
    rw [allWithoutStops, stoppedReadings, readings, first, rest]

end

end Reading

/-- Every rule of a tree has a property, and no member is neither rule nor group only by its fault. -/
inductive Each (property : Fields → Prop) : RuleNode → Prop where
  | rule {fields : Fields} (holds : property fields) : Each property (.rule fields)
  | group {operator : GroupOperator} {fields : Fields} {children : List RuleNode}
      (members : ∀ child ∈ children, Each property child) : Each property (.group operator fields children)
  | other : Each property .other

theorem Each.mono {property other : Fields → Prop} {node : RuleNode} (each : node.Each property)
    (implies : ∀ fields, property fields → other fields) : node.Each other := by
  induction each with
  | rule holds => exact .rule (implies _ holds)
  | group _ ih => exact .group ih
  | other => exact .other

theorem Each.withoutStops {property : Fields → Prop} {node : RuleNode} (each : node.Each property) :
    node.withoutStops.Each property := by
  induction each with
  | rule holds => exact .rule holds
  | other => exact .other
  | group _ ih =>
    rw [RuleNode.withoutStops]
    refine .group fun child member => ?_
    obtain ⟨original, inside, rfl⟩ := mem_allWithoutStops member
    exact ih original inside

end RuleNode

/-- The fault of joining messages of which one is no text. -/
def Fault.IsJoining (fault : Fault) : Prop := ∃ index kind, kind ≠ Kind.text ∧ fault = .type (.joined index kind)

theorem Value.isJoining_of_allTexts {values : List Value} {index : Nat} {fault : Fault}
    (ended : allTexts index values = .error fault) : fault.IsJoining := by
  induction values generalizing index with
  | nil => cases ended
  | cons value rest ih =>
    by_cases text : ∃ shown, value = .text shown
    · obtain ⟨shown, rfl⟩ := text
      rw [allTexts] at ended
      cases later : allTexts (index + 1) rest with
      | error other =>
        rw [later] at ended
        cases ended
        exact ih later
      | ok shown =>
        rw [later] at ended
        cases ended
    · have other : value.kind ≠ .text := by
        intro kind
        apply text
        cases value with
        | scalar scalar =>
          cases scalar with
          | text shown => exact ⟨shown, rfl⟩
          | number n => cases n <;> cases kind
          | null | bool | date | moment => cases kind
        | list | object | handle => cases kind
      rw [allTexts] at ended
      · cases ended
        exact ⟨index, value.kind, other, rfl⟩
      · intro shown same
        exact text ⟨shown, same⟩

namespace Pass

variable {σ α β : Type}

/-- Whatever the progress, steps end with a good result, or in a fault of a kind. -/
def Settles (steps : Pass σ α) (good : α → Prop) (bad : Fault → Prop) : Prop :=
  ∀ progress, (∃ value later, steps.run.run progress = (.ok value, later) ∧ good value) ∨
    ∃ fault later, steps.run.run progress = (.error fault, later) ∧ bad fault

namespace Settles

variable {good : α → Prop} {bad : Fault → Prop}

theorem pure {value : α} (holds : good value) : Settles (σ := σ) (pure value) good bad :=
  fun progress => .inl ⟨value, progress, rfl, holds⟩

theorem lift {result : Except Fault α} (ended : ∀ value, result = .ok value → good value)
    (broken : ∀ fault, result = .error fault → bad fault) : Settles (σ := σ) (liftM result) good bad := by
  intro progress
  cases result with
  | ok value => exact .inl ⟨value, progress, rfl, ended value rfl⟩
  | error fault => exact .inr ⟨fault, progress, rfl, broken fault rfl⟩

theorem bind {steps : Pass σ α} {next : α → Pass σ β} {better : β → Prop} (first : Settles steps good bad)
    (rest : ∀ value, good value → Settles (next value) better bad) : Settles (steps >>= next) better bad := by
  intro progress
  rcases first progress with ⟨value, later, ended, holds⟩ | ⟨fault, later, ended, broken⟩
  · rw [run_bind_of_ok ended]
    exact rest value holds later
  · exact .inr ⟨fault, later, by rw [run_bind, ended], broken⟩

theorem weaken {steps : Pass σ α} {less : α → Prop} (settles : Settles steps good bad)
    (implies : ∀ value, good value → less value) : Settles steps less bad := by
  intro progress
  rcases settles progress with ⟨value, later, ended, holds⟩ | broken
  · exact .inl ⟨value, later, ended, implies value holds⟩
  · exact .inr broken

theorem of_returns {steps : Pass σ α} (returns : Returns steps good) : Settles steps good bad :=
  fun progress => .inl (returns progress)

end Settles

/-- What examining a member tells: whether it has failed, and as what. -/
structure ChildFailure.Shows (failure? : Option ChildFailure) (holds isGroup : Bool) : Prop where
  told : failure?.isNone = holds
  nested : ∀ failure, failure? = some failure → failure.isNested = isGroup

/-- Deciding on what is known when a group stops gives its reading. -/
theorem fails_stopped (operator : GroupOperator) (members : Nat) (first? : Option Bool) :
    ((first? == some true) || operator.fails (if first?.isSome then 1 else 0) members) =
      !operator.stoppedReading members first? := by
  cases first? with
  | none =>
    have counted := fails_count operator (List.replicate members true)
    rw [List.count_replicate, List.length_replicate] at counted
    exact counted
  | some isGroup =>
    cases isGroup with
    | true => rfl
    | false =>
      cases operator with
      | and => rfl
      | or => simp [GroupOperator.fails, GroupOperator.stoppedReading, bne, Bool.beq_comm (a := members)]
      | not => rfl

section Findings

variable (judgement : Judgement) (subject : Subject)

/-- What the findings of a group show of its members: all that fail, or the first one if the group stops. -/
structure Findings.Show (findings : Findings) (stops : Bool) (children : List RuleNode) : Prop where
  all : stops = false → findings.isCut = false ∧
    findings.reasons.length = (RuleNode.stoppedReadings judgement subject children).count false
  first : stops = true → findings.isCut = ((RuleNode.firstFailing? judgement subject children) == some true) ∧
    findings.reasons.length = if (RuleNode.firstFailing? judgement subject children).isSome then 1 else 0

variable {judgement subject}

namespace Findings.Show

variable {findings : Findings} {stops : Bool} {child : RuleNode} {rest : List RuleNode}

theorem nothing : Show judgement subject {} stops [] where
  all := fun _ => ⟨rfl, rfl⟩
  first := fun _ => ⟨rfl, rfl⟩

theorem after_holding (holds : child.stoppedReading judgement subject = true)
    (shows : findings.Show judgement subject stops rest) : findings.Show judgement subject stops (child :: rest) where
  all := by
    intro going
    rw [RuleNode.stoppedReadings, holds]
    exact shows.all going
  first := by
    intro stopping
    rw [RuleNode.firstFailing?, if_pos holds]
    exact shows.first stopping

theorem after_failing (fails : child.stoppedReading judgement subject = false) (reason : Value)
    (shows : findings.Show judgement subject false rest) :
    (findings.add reason).Show judgement subject false (child :: rest) where
  all := by
    intro going
    obtain ⟨whole, counted⟩ := shows.all going
    rw [RuleNode.stoppedReadings, fails, List.count_cons_self]
    exact ⟨whole, congrArg Nat.succ counted⟩
  first := nofun

theorem stopped (fails : child.stoppedReading judgement subject = false) (reason : Value) :
    Show judgement subject { reasons := [reason], isCut := child.isGroup } true (child :: rest) where
  all := nofun
  first := by
    intro _
    rw [RuleNode.firstFailing?, fails]
    cases child.isGroup <;> exact ⟨rfl, rfl⟩

end Findings.Show

theorem Findings.Show.fails {operator : GroupOperator} {fields : Fields} {children : List RuleNode}
    {findings : Findings} (shows : findings.Show judgement subject (stopsEarly fields) children) :
    (findings.isCut || operator.fails findings.reasons.length children.length) =
      !RuleNode.stoppedReading judgement subject (.group operator fields children) := by
  rw [RuleNode.stoppedReading]
  cases stops : stopsEarly fields with
  | false =>
    obtain ⟨whole, counted⟩ := shows.all stops
    rw [whole, counted, Bool.false_or, ← RuleNode.length_stoppedReadings judgement subject, fails_count]
    rfl
  | true =>
    obtain ⟨cut, counted⟩ := shows.first stops
    rw [cut, counted]
    exact fails_stopped operator children.length _

end Findings

theorem groupMessage_error {fields : Fields} {reasons : List Value} {fault : Fault}
    (ended : groupMessage fields reasons = .error fault) : fault.IsJoining := by
  simp only [groupMessage] at ended
  split at ended
  · cases ended
  · cases joined : Value.allTexts 0 reasons with
    | ok texts =>
      rw [Value.joinTexts, Value.joinWith, joined] at ended
      cases ended
    | error other =>
      rw [Value.joinTexts, Value.joinWith, joined] at ended
      cases ended
      exact Value.isJoining_of_allTexts joined

section Trees

variable {backend : Backend σ} {judgement : Judgement} {subject : Subject}

theorem verdict?_settles {operator : GroupOperator} {fields : Fields} {children : List RuleNode} {findings : Findings}
    (shows : findings.Show judgement subject (stopsEarly fields) children) :
    Settles (σ := σ) (liftM (verdict? operator fields children.length findings))
      (·.isNone = RuleNode.stoppedReading judgement subject (.group operator fields children)) Fault.IsJoining := by
  have fails : (findings.isCut || operator.fails findings.reasons.length children.length) =
      !RuleNode.stoppedReading judgement subject (.group operator fields children) := shows.fails
  unfold verdict?
  cases said : groupMessage fields findings.reasons with
  | error fault =>
    have joining := groupMessage_error said
    cases cut : findings.isCut with
    | true => exact .lift nofun fun other ended => by cases ended; exact joining
    | false =>
      rw [cut, Bool.false_or] at fails
      rw [fails]
      cases RuleNode.stoppedReading judgement subject (.group operator fields children) with
      | true => exact .pure rfl
      | false => exact .lift nofun fun other ended => by cases ended; exact joining
  | ok message =>
    cases cut : findings.isCut with
    | true =>
      rw [cut, Bool.true_or] at fails
      refine .pure ?_
      simpa using fails
    | false =>
      rw [cut, Bool.false_or] at fails
      rw [fails]
      cases RuleNode.stoppedReading judgement subject (.group operator fields children) <;> exact .pure rfl

theorem collect_settles {children : List RuleNode} (stops : Bool)
    (examined : ∀ child ∈ children, Settles (examine backend subject child)
      (ChildFailure.Shows · (child.stoppedReading judgement subject) child.isGroup) Fault.IsJoining) :
    Settles (collect backend subject stops children) (Findings.Show judgement subject · stops children)
      Fault.IsJoining := by
  induction children with
  | nil => exact .pure .nothing
  | cons child rest ih =>
    have later := ih fun next member => examined next (List.mem_cons_of_mem _ member)
    unfold collect
    refine (examined child List.mem_cons_self).bind fun failure? shown => ?_
    have told := shown.told
    cases failure? with
    | none => exact later.weaken fun _ shows => shows.after_holding told.symm
    | some failure =>
      obtain ⟨reason, isNested⟩ := failure
      obtain rfl : isNested = child.isGroup := shown.nested _ rfl
      cases stops with
      | true => exact .pure (.stopped told.symm reason)
      | false => exact later.bind fun _ shows => .pure (shows.after_failing told.symm reason)

theorem examine_settles {node : RuleNode} (each : node.Each fun rule =>
      Settles (failure? backend subject rule)
        (ChildFailure.Shows · (RuleNode.stoppedReading judgement subject (.rule rule)) false) Fault.IsJoining) :
    Settles (examine backend subject node)
      (ChildFailure.Shows · (node.stoppedReading judgement subject) node.isGroup) Fault.IsJoining := by
  induction each with
  | rule settles => exact settles
  | other => exact .pure ⟨rfl, nofun⟩
  | group _ ih =>
    refine (collect_settles _ ih).bind fun findings shows => (verdict?_settles shows).bind fun message? reads => ?_
    refine .pure ⟨?_, ?_⟩
    · rw [Option.isNone_map, reads]
    · intro failure found
      obtain ⟨_, _, rfl⟩ := Option.map_eq_some_iff.mp found
      rfl

/-- An evaluation ends with a message just if the group fails, or in the fault of joining the messages. -/
theorem evaluate_settles {operator : GroupOperator} {fields : Fields} {children : List RuleNode}
    (each : (RuleNode.group operator fields children).Each fun rule =>
      Settles (failure? backend subject rule)
        (ChildFailure.Shows · (RuleNode.stoppedReading judgement subject (.rule rule)) false) Fault.IsJoining) :
    Settles (evaluate backend subject operator fields children)
      (·.isNone = RuleNode.stoppedReading judgement subject (.group operator fields children)) Fault.IsJoining := by
  cases each with
  | group members =>
    exact (collect_settles _ fun child member => examine_settles (members child member)).bind fun _ shows =>
      verdict?_settles shows

end Trees

end Pass

end FormRules

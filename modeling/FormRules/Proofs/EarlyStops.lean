import FormRules.Proofs.GroupVerdict

/-! Stopping at the first failure may change the verdict on a group. A group of which all members must hold is
indifferent to it. One of which some member has to hold passes when it stops at a rule, since one failure is not all
of them, and fails when it stops at a nested group, whatever follows. Below a negation the two change places. What
is ruled out here are the places where a group that fails would come to pass. -/

namespace FormRules

namespace GroupOperator

/-- Members have to hold for a group to hold, or to fail for one that denies them. -/
def direction (strict : Bool) : GroupOperator → Bool
  | .not => !strict
  | _ => strict

theorem reading_map {operator : GroupOperator} {nodes : List RuleNode} {answer : RuleNode → Bool} :
    operator.reading (nodes.map answer) = true ↔
      match operator with
      | .and => ∀ node ∈ nodes, answer node = true
      | .or => ∃ node ∈ nodes, answer node = true
      | .not => ∃ node ∈ nodes, answer node = false := by
  cases operator <;> simp [reading]

end GroupOperator

/-- An answer that differs from another one in one direction only. -/
def Follows (strict stopped plain : Bool) : Prop :=
  if strict then stopped = true → plain = true else plain = true → stopped = true

theorem Follows.rfl {strict answer : Bool} : Follows strict answer answer := by
  cases strict <;> exact id

namespace RuleNode

def isRule : RuleNode → Bool
  | .rule _ => true
  | _ => false

mutual

/-- Whether stopping early can turn the verdict on a tree one way only: from passing to failing if it is to be
strict, and from failing to passing otherwise. -/
def stopsSafely (strict : Bool) : RuleNode → Bool
  | .group operator fields children =>
    if Pass.stopsEarly fields then
      match operator with
      | .and => allStopSafely strict children
      | .or => firstStopsSafely strict children
      | .not => strict || !children.any isGroup
    else allStopSafely (operator.direction strict) children
  | _ => true

def allStopSafely (strict : Bool) : List RuleNode → Bool
  | [] => true
  | child :: rest => stopsSafely strict child && allStopSafely strict rest

/-- For a group of which some member has to hold, and which may end with the first one. -/
def firstStopsSafely (strict : Bool) : List RuleNode → Bool
  | [] => true
  | child :: rest =>
    stopsSafely strict child && (rest.isEmpty || if strict then !child.isRule else !(child :: rest).any isGroup)

end

section Verdicts

variable {judgement : Judgement} {subject : Subject} {strict : Bool} {fields : Fields} {children : List RuleNode}

theorem allStopSafely_iff : allStopSafely strict children = true ↔
    ∀ child ∈ children, child.stopsSafely strict = true := by
  induction children with
  | nil => simp [allStopSafely]
  | cons child rest ih => simp [allStopSafely, ih]

theorem firstFailing?_eq_none : firstFailing? judgement subject children = none ↔
    ∀ child ∈ children, child.stoppedReading judgement subject = true := by
  induction children with
  | nil => simp [firstFailing?]
  | cons child rest ih =>
    rw [firstFailing?, List.forall_mem_cons, ← ih]
    cases child.stoppedReading judgement subject <;> simp

/-- Some member fails that is a group, or not, like the first one to fail. -/
theorem exists_of_firstFailing? {isNested : Bool} (found : firstFailing? judgement subject children = some isNested) :
    ∃ child ∈ children, child.isGroup = isNested ∧ child.stoppedReading judgement subject = false := by
  induction children with
  | nil => cases found
  | cons child rest ih =>
    rw [firstFailing?] at found
    split at found
    next =>
      obtain ⟨failing, member, known⟩ := ih found
      exact ⟨failing, List.mem_cons_of_mem _ member, known⟩
    next fails =>
      cases found
      exact ⟨child, List.mem_cons_self, rfl, Bool.eq_false_iff.mpr fails⟩

/-- Only groups stop. -/
theorem stoppedReading_eq_reading {node : RuleNode} (single : node.isGroup = false) :
    node.stoppedReading judgement subject = node.reading judgement subject := by
  cases node with
  | group => cases single
  | rule | other | faulty => rw [stoppedReading, reading]

/-- What is neither a rule nor a group does not fail. -/
theorem isRule_of_fails {node : RuleNode} (single : node.isGroup = false)
    (fails : node.stoppedReading judgement subject = false) : node.isRule = true := by
  cases node with
  | rule => rfl
  | group => cases single
  | other | faulty => cases fails

variable (judgement subject) in
/-- How the verdict on a tree follows the one in which nothing stops. -/
abbrev FollowsPlain (strict : Bool) (node : RuleNode) : Prop :=
  Follows strict (node.stoppedReading judgement subject) (node.reading judgement subject)

/-- A group that goes on to its last member. -/
theorem going_follows {operator : GroupOperator}
    (follow : ∀ child ∈ children, child.FollowsPlain judgement subject (operator.direction strict)) :
    Follows strict (operator.reading (children.map (stoppedReading judgement subject)))
      (operator.reading (children.map (reading judgement subject))) := by
  cases operator <;> cases strict <;> intro holds <;> rw [GroupOperator.reading_map] at holds ⊢
  case and.false | and.true => exact fun child member => follow child member (holds child member)
  case or.false | or.true =>
    obtain ⟨child, member, holds⟩ := holds
    exact ⟨child, member, follow child member holds⟩
  case not.false | not.true =>
    obtain ⟨child, member, fails⟩ := holds
    refine ⟨child, member, Bool.eq_false_iff.mpr fun other => ?_⟩
    exact Bool.eq_false_iff.mp fails (follow child member other)

/-- One failure decides on a group of which all members must hold. -/
theorem stopped_and : GroupOperator.and.stoppedReading children.length (firstFailing? judgement subject children) =
    GroupOperator.and.reading (children.map (stoppedReading judgement subject)) := by
  rw [Bool.eq_iff_iff, GroupOperator.reading_map, ← firstFailing?_eq_none]
  cases firstFailing? judgement subject children with
  | none => simp [GroupOperator.stoppedReading, GroupOperator.reading]
  | some isNested => cases isNested <;> simp [GroupOperator.stoppedReading]

/-- Where stopping at a rule cannot hide that the first member fails, a group of which some member has to hold
passes only if its first member does. -/
theorem first_of_stopped_or {child : RuleNode} {rest : List RuleNode} (safe : rest = [] ∨ child.isRule = false)
    (holds : GroupOperator.or.stoppedReading (child :: rest).length
      (firstFailing? judgement subject (child :: rest)) = true) :
    child.stoppedReading judgement subject = true := by
  cases here : child.stoppedReading judgement subject with
  | true => rfl
  | false =>
    have first : firstFailing? judgement subject (child :: rest) = some child.isGroup := by
      rw [firstFailing?, if_neg (Bool.eq_false_iff.mp here)]
    rw [first] at holds
    cases nested : child.isGroup with
    | true =>
      -- a nested group that fails ends the group at once
      rw [nested] at holds
      cases holds
    | false =>
      -- one failure is all of them only where there is one member
      rw [nested] at holds
      rcases safe with rfl | other
      · cases holds
      · rw [isRule_of_fails nested here] at other
        cases other

/-- Where no nested group can end a group of which some member has to hold, it passes as soon as one does. -/
theorem stopped_or_of_holds {child : RuleNode} (member : child ∈ children)
    (safe : children.length = 1 ∨ children.any isGroup = false)
    (holds : child.stoppedReading judgement subject = true) :
    GroupOperator.or.stoppedReading children.length (firstFailing? judgement subject children) = true := by
  cases found : firstFailing? judgement subject children with
  | none =>
    have some : children ≠ [] := List.ne_nil_of_mem member
    simpa [GroupOperator.stoppedReading, GroupOperator.reading] using some
  | some isNested =>
    obtain ⟨failing, inside, nested, fails⟩ := exists_of_firstFailing? found
    have several : children.length ≠ 1 := by
      intro single
      obtain ⟨only, rfl⟩ := List.length_eq_one_iff.mp single
      rw [List.mem_singleton.mp inside, ← List.mem_singleton.mp member, holds] at fails
      cases fails
    cases isNested with
    | true =>
      have grouped : children.any isGroup = true := List.any_eq_true.mpr ⟨failing, inside, nested⟩
      rw [grouped] at safe
      exact absurd safe (by simp [several])
    | false => simpa [GroupOperator.stoppedReading] using several

theorem stopped_or_follows (follow : ∀ child ∈ children, child.stopsSafely strict = true →
      child.FollowsPlain judgement subject strict) (safe : firstStopsSafely strict children = true) :
    Follows strict (GroupOperator.or.stoppedReading children.length (firstFailing? judgement subject children))
      (GroupOperator.or.reading (children.map (reading judgement subject))) := by
  cases children with
  | nil => exact .rfl
  | cons child rest =>
    rw [firstStopsSafely, Bool.and_eq_true, Bool.or_eq_true, List.isEmpty_iff] at safe
    obtain ⟨first, safe⟩ := safe
    cases strict <;> intro holds
    case true =>
      have kept := first_of_stopped_or (by simpa using safe) holds
      rw [GroupOperator.reading_map]
      exact ⟨child, List.mem_cons_self, follow child List.mem_cons_self first kept⟩
    case false =>
      rw [GroupOperator.reading_map] at holds
      obtain ⟨holding, member, holds⟩ := holds
      rcases safe with rfl | single
      · obtain rfl := List.mem_singleton.mp member
        exact stopped_or_of_holds member (.inl rfl) (follow holding member first holds)
      · have plain : (child :: rest).any isGroup = false := by simpa using single
        have here : holding.isGroup = false := Bool.eq_false_iff.mpr (List.any_eq_false.mp plain holding member)
        exact stopped_or_of_holds member (.inr plain) ((stoppedReading_eq_reading here).trans holds)

/-- A group that denies its members passes, when it stops, only if a rule among them fails. -/
theorem stopped_not_follows (safe : (strict || !children.any isGroup) = true) :
    Follows strict (GroupOperator.not.stoppedReading children.length (firstFailing? judgement subject children))
      (GroupOperator.not.reading (children.map (reading judgement subject))) := by
  cases strict <;> intro holds
  case true =>
    rw [GroupOperator.reading_map]
    cases found : firstFailing? judgement subject children with
    | none => simp [found, GroupOperator.stoppedReading, GroupOperator.reading] at holds
    | some isNested =>
      obtain ⟨child, member, nested, fails⟩ := exists_of_firstFailing? found
      cases isNested with
      | true => simp [found, GroupOperator.stoppedReading] at holds
      | false => exact ⟨child, member, stoppedReading_eq_reading nested ▸ fails⟩
  case false =>
    have plain : children.any isGroup = false := by simpa using safe
    have single : ∀ child ∈ children, child.isGroup = false := fun child member =>
      Bool.eq_false_iff.mpr (List.any_eq_false.mp plain child member)
    rw [GroupOperator.reading_map] at holds
    obtain ⟨failing, member, fails⟩ := holds
    cases found : firstFailing? judgement subject children with
    | none =>
      have kept := firstFailing?_eq_none.mp found failing member
      rw [stoppedReading_eq_reading (single failing member), fails] at kept
      cases kept
    | some isNested =>
      obtain ⟨child, inside, nested, _⟩ := exists_of_firstFailing? found
      rw [single child inside] at nested
      rw [← nested]
      rfl

variable (judgement subject) in
mutual

theorem follows_of_stopsSafely (strict : Bool) :
    (node : RuleNode) → node.stopsSafely strict = true → node.FollowsPlain judgement subject strict
  | .rule _, _ | .other, _ | .faulty _, _ => by
    rw [FollowsPlain, stoppedReading_eq_reading rfl]
    exact .rfl
  | .group operator fields children, safe => by
    unfold stopsSafely at safe
    rw [FollowsPlain, stoppedReading, reading, readings_eq_map, stoppedReadings_eq_map]
    have follow := members_follow children
    split at safe
    next stops =>
      rw [if_pos stops]
      cases operator with
      | and =>
        rw [stopped_and]
        exact going_follows fun child member => follow child member strict (allStopSafely_iff.mp safe child member)
      | or => exact stopped_or_follows (fun child member => follow child member strict) safe
      | not => exact stopped_not_follows safe
    next going =>
      rw [if_neg going]
      exact going_follows fun child member => follow child member _ (allStopSafely_iff.mp safe child member)

theorem members_follow : (nodes : List RuleNode) → ∀ node ∈ nodes, ∀ strict, node.stopsSafely strict = true →
    node.FollowsPlain judgement subject strict
  | [] => nofun
  | node :: nodes => by
    have first := fun strict => follows_of_stopsSafely strict node
    exact List.forall_mem_cons.mpr ⟨first, members_follow nodes⟩

end

end Verdicts

end RuleNode

namespace Pass

variable {σ : Type} {backend : Backend σ} {judgement : Judgement} {subject : Subject} {progress later : Progress σ}

/-- Whether a value can be scored does not depend on the scores so far. -/
theorem withScore_yields {scores others more : Keyed Scoring.Score} {field value : Value} {rule : Fields}
    (scored : withScore scores field value rule = .ok more) :
    Yields (withScore others field value rule) fun _ => True := by
  obtain ⟨score?, given, scored⟩ := Fault.of_bind_ok scored
  unfold withScore
  rw [given]
  cases score? with
  | none => exact .ok trivial
  | some score =>
    simp only at scored
    split at scored
    next stored =>
      obtain ⟨key, known, _⟩ := Fault.of_bind_ok scored
      exact ⟨Keyed.insert others key score, by simp only [bind, Except.bind, if_pos stored, known]; rfl, trivial⟩
    next unstored => exact ⟨others, by simp only [bind, Except.bind, if_neg unstored]; rfl, trivial⟩

theorem canScore_of_failure?_ok {rule : Fields} {failed : Option ChildFailure}
    (ended : (failure? backend subject rule).run.run progress = (.ok failed, later)) : subject.CanScore rule := by
  intro stance scores
  unfold failure? at ended
  rw [stance] at ended
  obtain ⟨_, _, scored, _⟩ := of_bind_ok ended
  obtain ⟨_, _, _, scored⟩ := of_bind_ok scored
  obtain ⟨_, _, given, _⟩ := of_bind_ok scored
  rw [run_lift, Prod.mk.injEq] at given
  exact withScore_yields given.1

mutual

/-- A group that goes on to its last member has met all of its rules. -/
theorem canScore_of_examine_ok (node : RuleNode) {progress later : Progress σ} {failed : Option ChildFailure}
    (ended : (examine backend subject node.withoutStops).run.run progress = (.ok failed, later)) :
    node.Each subject.CanScore := by
  cases node with
  | rule => exact .rule (canScore_of_failure?_ok ended)
  | other => exact .other
  | faulty => cases ended
  | group operator fields children =>
    rw [RuleNode.withoutStops, examine, RuleNode.stopsEarly_goingOn] at ended
    obtain ⟨findings, _, collected, _⟩ := of_bind_ok ended
    exact .group (canScore_of_collect_ok children collected)

theorem canScore_of_collect_ok (children : List RuleNode) {progress later : Progress σ} {findings : Findings}
    (ended : (collect backend subject false (RuleNode.allWithoutStops children)).run.run progress =
      (.ok findings, later)) : ∀ child ∈ children, child.Each subject.CanScore := by
  cases children with
  | nil => exact nofun
  | cons child rest =>
    rw [RuleNode.allWithoutStops, collect] at ended
    obtain ⟨failed, _, examined, ended⟩ := of_bind_ok ended
    have others : ∀ next ∈ rest, next.Each subject.CanScore := by
      cases failed with
      | none => exact canScore_of_collect_ok rest ended
      | some failure =>
        obtain ⟨findings, _, collected, _⟩ := of_bind_ok ended
        exact canScore_of_collect_ok rest collected
    exact List.forall_mem_cons.mpr ⟨canScore_of_examine_ok child examined, others⟩

end

theorem failure?_settles (decides : backend.Decides judgement) {rule : Fields} (scores : subject.CanScore rule) :
    Settles (failure? backend subject rule)
      (ChildFailure.Shows · (RuleNode.stoppedReading judgement subject (.rule rule)) false) Fault.IsJoining := by
  refine .of_returns ((failure?_judged decides scores).weaken fun failure? known => ?_)
  rw [known, RuleNode.stoppedReading_eq_reading rfl]
  cases RuleNode.reading judgement subject (.rule rule) with
  | true => exact ⟨rfl, nofun⟩
  | false =>
    refine ⟨rfl, fun failure found => ?_⟩
    cases found
    rfl

/-- A group that fails if nothing in it stops early also fails, whatever the progress, if it stops only where that
is safe. -/
theorem evaluate_fails_stopping (decides : backend.Decides judgement) {operator : GroupOperator} {fields : Fields}
    {children : List RuleNode} (safe : (RuleNode.group operator fields children).stopsSafely true = true)
    {message : Value}
    (failed : (evaluate backend subject operator (RuleNode.goingOn fields)
      (RuleNode.allWithoutStops children)).run.run progress = (.ok (some message), later)) :
    Settles (evaluate backend subject operator fields children) (·.isSome = true) Fault.IsJoining := by
  -- the run that goes on has met every rule, so none of those that score ends the other run with a fault
  have each : (RuleNode.group operator fields children).Each subject.CanScore := by
    rw [evaluate, RuleNode.stopsEarly_goingOn] at failed
    obtain ⟨_, _, collected, _⟩ := of_bind_ok failed
    exact .group (canScore_of_collect_ok children collected)
  have settles {node : RuleNode} (each : node.Each subject.CanScore) :=
    each.mono fun _ scores => failure?_settles decides scores
  have plain : (RuleNode.group operator fields children).reading judgement subject = false := by
    have reads := evaluate_settles (settles each.withoutStops)
    rw [← RuleNode.withoutStops, RuleNode.stoppedReading_withoutStops] at reads
    rcases reads progress with ⟨message?, last, ended, reads⟩ | ⟨fault, last, ended, _⟩
    · cases failed.symm.trans ended
      exact reads.symm
    · cases failed.symm.trans ended
  have stopped : (RuleNode.group operator fields children).stoppedReading judgement subject = false := by
    have follows := RuleNode.follows_of_stopsSafely judgement subject true _ safe
    exact Bool.eq_false_iff.mpr fun holds => Bool.eq_false_iff.mp plain (follows holds)
  refine (evaluate_settles (settles each)).weaken fun message? reads => ?_
  rw [stopped, Option.isNone_eq_false_iff] at reads
  exact reads

/-- A group that stops within a group that stops, and a negation. -/
theorem evaluate_fails_stopping_nested :
    let rejecting : Backend Unit := fun _ rule _ state => (.ok (.failure rule "No"), state)
    let subject : Subject := ⟨.text "name", .text "x", true, .ofData (.object [])⟩
    let email : RuleNode := .rule [(.text "type", .text "email")]
    let stopping : Fields := [(.text "stopOnFirstError", .bool true)]
    let children : List RuleNode :=
      [.group .or stopping [.group .and stopping [email, email], email], .group .not [] [.group .or [] [email]]]
    Settles (evaluate rejecting subject .and stopping children) (·.isSome = true) Fault.IsJoining := by
  intro rejecting subject email stopping children
  have decides : rejecting.Decides fun _ rule _ => .failure rule "No" := fun _ _ _ _ => rfl
  have fails : (evaluate rejecting subject .and [] (RuleNode.allWithoutStops children)).run.run { backend := () } =
      (.ok (some (.text "Nested group validation failed")), { backend := () }) := rfl
  exact evaluate_fails_stopping decides rfl fails

/-- A group of two rules that fail passes when it stops at the first one, as that is not all of them. A group that
passes fails when it stops at a nested group, and what denies it passes. -/
theorem evaluate_passes_stopping :
    let backend : Backend Unit := fun _ rule _ state =>
      match Fields.get rule "type" with
      | .text "email" => (.ok (.failure rule "No"), state)
      | _ => (.ok .pass, state)
    let subject : Subject := ⟨.text "name", .text "x", true, .ofData (.object [])⟩
    let verdict fields operator children :=
      ((evaluate backend subject operator fields children).run.run { backend := () }).1
    let stopping : Fields := [(.text "stopOnFirstError", .bool true)]
    let email : RuleNode := .rule [(.text "type", .text "email")]
    let required : RuleNode := .rule [(.text "type", .text "required")]
    let either fields : RuleNode := .group .or fields [.group .and [] [email], required]
    let neither fields : RuleNode := .group .not fields [.group .and [] [email]]
    let failed : Value := .text "Validation group failed"
    (verdict [] .or [email, email] = .ok (some (.text "No, No")) ∧ verdict stopping .or [email, email] = .ok none) ∧
    (verdict [] .not [either []] = .ok (some failed) ∧ verdict [] .not [either stopping] = .ok none) ∧
    (verdict [] .not [neither []] = .ok (some failed) ∧ verdict [] .not [neither stopping] = .ok none) :=
  ⟨⟨rfl, rfl⟩, ⟨rfl, rfl⟩, rfl, rfl⟩

end Pass

end FormRules

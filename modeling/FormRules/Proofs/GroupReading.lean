import FormRules.Proofs.Agreement
import FormRules.Proofs.KeyedEntries
import FormRules.Proofs.Messages
import FormRules.Proofs.PassLogic

/-! A pass counts the failures among the members of a group. Its verdict is the Boolean reading of the
group: that all of its members hold, that one does, or that one does not. Stopping at the first failure
saves work but does not change the verdict, as only a group of which all members must hold stops. -/

namespace FormRules

def GroupOperator.reading : GroupOperator → List Bool → Bool
  | .and, answers => answers.all id
  | .or, answers => answers.any id
  | .not, answers => answers.any fun answer => !answer

/-- The outcomes of a backend that goes by nothing else than what it is asked. -/
abbrev Judgement := Value → Fields → Context → Outcome

/-- A backend whose outcomes are these, a fault being a failure. -/
def Backend.Decides (backend : Backend σ) (judgement : Judgement) : Prop :=
  ∀ value rule context state,
    Pass.outcomeOf rule (backend value rule context state).1 = judgement value rule context

/-- Whether a rule holds without being checked: it only scores, its condition does not hold, or it asks
for a value where none is required. -/
def Subject.isExempt (subject : Subject) (rule : Fields) : Bool :=
  let kind? := RuleKind.ofValue? (Fields.get rule "type")
  let condition := Fields.get rule "when"
  kind? == some .computed || !Condition.admits subject.context.source condition ||
    (kind? == some .required && !condition.truthy && !subject.isRequired)

theorem Subject.isExempt_eq_stance (subject : Subject) (rule : Fields) :
    subject.isExempt rule = (subject.stance rule != .judged) := by
  unfold isExempt stance
  simp only
  generalize Condition.admits subject.context.source (Fields.get rule "when") = admitted
  generalize (RuleKind.ofValue? (Fields.get rule "type") == some .computed) = scored
  generalize (RuleKind.ofValue? (Fields.get rule "type") == some .required &&
    !(Fields.get rule "when").truthy && !subject.isRequired) = unasked
  cases admitted <;> cases scored <;> cases unasked <;> rfl

namespace RuleNode

variable (judgement : Judgement) (subject : Subject)

mutual

/-- The Boolean reading of a rule or group; what is neither holds. -/
def reading : RuleNode → Bool
  | .rule fields => subject.isExempt fields || (judgement subject.value fields subject.context).valid
  | .group operator _ children => operator.reading (readings children)
  | .other => true
  | .faulty _ => true

def readings : List RuleNode → List Bool
  | [] => []
  | child :: rest => reading child :: readings rest

end

/-- Trees without members that nobody can tell for rules or groups. Only groups of which all members must
hold stop early, all messages are texts, and scoring ends without a fault. -/
inductive Sound : RuleNode → Prop where
  | rule {fields : Fields} (message : (Fields.get fields "message").IsMessage)
      (error : (judgement subject.value fields subject.context).error.IsMessage)
      (scores : subject.stance fields = .scored →
        ∀ scores, ∃ more, Pass.withScore scores subject.path subject.value fields = .ok more) :
      Sound (.rule fields)
  | group {operator : GroupOperator} {fields : Fields} {children : List RuleNode}
      (stops : Pass.stopsEarly fields = true → operator = .and)
      (own : (Fields.get fields "groupMessage").IsMessage) (message : (Fields.get fields "message").IsMessage)
      (members : ∀ child ∈ children, Sound child) : Sound (.group operator fields children)
  | other : Sound .other

def goingOn (fields : Fields) : Fields := Keyed.erase fields (.text "stopOnFirstError")

mutual

def withoutStops : RuleNode → RuleNode
  | .rule fields => .rule fields
  | .group operator fields children =>
    .group operator (goingOn fields) (allWithoutStops children)
  | .other => .other
  | .faulty fault => .faulty fault

def allWithoutStops : List RuleNode → List RuleNode
  | [] => []
  | child :: rest => withoutStops child :: allWithoutStops rest

end

theorem readings_eq_map (nodes : List RuleNode) :
    readings judgement subject nodes = nodes.map (reading judgement subject) := by
  induction nodes with
  | nil => rfl
  | cons node nodes ih => rw [readings, ih, List.map_cons]

theorem length_readings (nodes : List RuleNode) : (readings judgement subject nodes).length = nodes.length := by
  rw [readings_eq_map, List.length_map]

mutual

theorem reading_withoutStops : (node : RuleNode) →
    reading judgement subject (withoutStops node) = reading judgement subject node
  | .rule _ | .other | .faulty _ => by rw [withoutStops]
  | .group operator fields children => by rw [withoutStops, reading, reading, readings_allWithoutStops children]

theorem readings_allWithoutStops : (nodes : List RuleNode) →
    readings judgement subject (allWithoutStops nodes) = readings judgement subject nodes
  | [] => rfl
  | node :: nodes => by
    rw [allWithoutStops, readings, readings, reading_withoutStops node, readings_allWithoutStops nodes]

end

theorem mem_allWithoutStops {node : RuleNode} {nodes : List RuleNode} (member : node ∈ allWithoutStops nodes) :
    ∃ original ∈ nodes, node = withoutStops original := by
  induction nodes with
  | nil => cases member
  | cons first rest ih =>
    cases member with
    | head => exact ⟨first, List.mem_cons_self, rfl⟩
    | tail _ member =>
      obtain ⟨original, inside, rfl⟩ := ih member
      exact ⟨original, List.mem_cons_of_mem _ inside, rfl⟩

theorem get_goingOn (fields : Fields) {name : String} (apart : name ≠ "stopOnFirstError") :
    Fields.get (goingOn fields) name = Fields.get fields name := by
  unfold goingOn Fields.get
  rw [Keyed.find?_erase, Scalar.coincides_text, beq_false_of_ne apart]
  rfl

theorem stopsEarly_goingOn (fields : Fields) : Pass.stopsEarly (goingOn fields) = false := by
  unfold Pass.stopsEarly goingOn Fields.get
  rw [Keyed.find?_erase, Scalar.coincides_text]
  rfl

variable {judgement subject}

theorem Sound.withoutStops {node : RuleNode} (sound : node.Sound judgement subject) :
    node.withoutStops.Sound judgement subject := by
  induction sound with
  | rule message error scores => exact .rule message error scores
  | other => exact .other
  | group _ own message _ ih =>
    rw [RuleNode.withoutStops]
    refine .group ?_ ?_ ?_ ?_
    · rw [stopsEarly_goingOn]
      exact nofun
    · rwa [get_goingOn _ (by decide)]
    · rwa [get_goingOn _ (by decide)]
    · intro child member
      obtain ⟨original, inside, rfl⟩ := mem_allWithoutStops member
      exact ih original inside

end RuleNode

namespace Pass

/-- What examining a child tells about it: whether it has failed, with a text as the reason. -/
structure ChildFailure.Tells (failure? : Option ChildFailure) (answer : Bool) : Prop where
  told : failure?.isNone = answer
  text : ∀ failure, failure? = some failure → ∃ shown, failure.reason = .text shown

/-- What the findings of a group tell about its children. All failures are among them unless the group
stops at the first one. -/
structure Findings.Tell (findings : Findings) (stops : Bool) (answers : List Bool) : Prop where
  texts : ∀ reason ∈ findings.reasons, ∃ shown, reason = .text shown
  clean : findings.reasons = [] ↔ false ∉ answers
  cut : findings.isCut = true → findings.reasons ≠ []
  counted : stops = false → findings.isCut = false ∧ findings.reasons.length = answers.count false

namespace Findings.Tell

variable {findings : Findings} {stops : Bool} {answers : List Bool}

theorem nothing : Tell {} stops [] where
  texts := fun _ member => nomatch member
  clean := by simp
  cut := fun cut => nomatch cut
  counted := fun _ => ⟨rfl, rfl⟩

theorem after_holding (tell : findings.Tell stops answers) : findings.Tell stops (true :: answers) where
  texts := tell.texts
  clean := by simp [tell.clean]
  cut := tell.cut
  counted := fun going => by simpa using tell.counted going

theorem after_failing (tell : findings.Tell false answers) (reason : String) :
    (findings.add (.text reason)).Tell false (false :: answers) where
  texts := by
    intro other member
    cases member with
    | head => exact ⟨reason, rfl⟩
    | tail _ member => exact tell.texts other member
  clean := by simp [add]
  cut := fun _ => by simp [add]
  counted := fun going => by
    obtain ⟨whole, counted⟩ := tell.counted going
    exact ⟨whole, by simp [add, counted]⟩

theorem stopped (reason : String) (isNested : Bool) :
    Tell { reasons := [.text reason], isCut := isNested } true (false :: answers) where
  texts := fun other member => ⟨reason, List.mem_singleton.mp member⟩
  clean := by simp
  cut := fun _ => by simp
  counted := fun going => nomatch going

end Findings.Tell

/-- Counting the failures among all children gives the reading of the operator. -/
theorem fails_count (operator : GroupOperator) (answers : List Bool) :
    operator.fails (answers.count false) answers.length = !operator.reading answers := by
  cases operator with
  | and =>
    have none : answers.count false = 0 ↔ answers.all id = true := by
      rw [List.count_eq_zero]
      simp
    rw [GroupOperator.fails, GroupOperator.reading, Bool.eq_iff_iff]
    simp only [bne_iff_ne, ne_eq, none]
    simp
  | or =>
    rw [GroupOperator.fails, GroupOperator.reading, Bool.eq_iff_iff]
    simp only [beq_iff_eq, List.count_eq_length]
    simp
  | not =>
    rw [GroupOperator.fails, GroupOperator.reading, Bool.eq_iff_iff]
    simp only [beq_iff_eq, List.count_eq_zero]
    simp

/-- A group that stops early may not have counted all failures; one is enough for it. -/
theorem Findings.Tell.fails {operator : GroupOperator} {findings : Findings} {stops : Bool} {answers : List Bool}
    (tell : findings.Tell stops answers) (conjunction : stops = true → operator = .and) :
    (findings.isCut || operator.fails findings.reasons.length answers.length) = !operator.reading answers := by
  cases stops with
  | false =>
    obtain ⟨whole, counted⟩ := tell.counted rfl
    rw [whole, counted, Bool.false_or, fails_count]
  | true =>
    obtain rfl := conjunction rfl
    have all : GroupOperator.and.reading answers = true ↔ findings.reasons = [] := by
      rw [tell.clean]
      simp [GroupOperator.reading]
    by_cases clean : findings.reasons = []
    · have whole : findings.isCut = false := Bool.eq_false_iff.mpr fun cut => tell.cut cut clean
      rw [whole, clean, all.mpr clean]
      rfl
    · rw [Bool.eq_false_iff.mpr fun holds => clean (all.mp holds)]
      simp [GroupOperator.fails, clean]

theorem verdict?_returns {operator : GroupOperator} {fields : Fields} {findings : Findings} {answers : List Bool}
    (tell : findings.Tell (stopsEarly fields) answers) (conjunction : stopsEarly fields = true → operator = .and) :
    ∃ message?, verdict? operator fields answers.length findings = .ok message? ∧
      message?.isNone = operator.reading answers := by
  obtain ⟨message, shown, _⟩ := groupMessage_yields fields tell.texts
  have fails := tell.fails conjunction
  unfold verdict?
  rw [shown]
  split
  next cut =>
    rw [cut, Bool.true_or] at fails
    exact ⟨some message, rfl, by simpa using fails⟩
  next whole =>
    rw [Bool.eq_false_iff.mpr whole, Bool.false_or] at fails
    split
    next failed => exact ⟨some _, rfl, by simpa [failed] using fails⟩
    next passed => exact ⟨none, rfl, by simpa [Bool.eq_false_iff.mpr passed] using fails⟩

section Trees

variable {σ : Type} {backend : Backend σ} {judgement : Judgement} {subject : Subject}

theorem collect_returns {children : List RuleNode} (stops : Bool)
    (examined : ∀ child ∈ children,
      Returns (examine backend subject child) (ChildFailure.Tells · (RuleNode.reading judgement subject child))) :
    Returns (collect backend subject stops children)
      (Findings.Tell · stops (RuleNode.readings judgement subject children)) := by
  induction children with
  | nil => exact .pure .nothing
  | cons child rest ih =>
    have later := ih fun next member => examined next (List.mem_cons_of_mem _ member)
    unfold collect
    rw [RuleNode.readings]
    refine (examined child List.mem_cons_self).bind _ fun failure? tells => ?_
    rw [← tells.told]
    cases failure? with
    | none => exact later.weaken fun _ tell => tell.after_holding
    | some failure =>
      obtain ⟨reason, isNested⟩ := failure
      obtain ⟨shown, rfl⟩ := tells.text _ rfl
      cases stops with
      | true => exact .pure (.stopped shown isNested)
      | false => exact later.bind _ fun _ tell => .pure (tell.after_failing shown)

variable (decides : backend.Decides judgement)

include decides

/-- A rule fails with the reason that its outcome gives, unless it is exempt. -/
theorem failure?_judged {rule : Fields} (scores : subject.CanScore rule) :
    Returns (failure? backend subject rule) fun failure? =>
      failure? = if RuleNode.reading judgement subject (.rule rule) then none
        else some ⟨(judgement subject.value rule subject.context).reason rule, false⟩ := by
  have exempt := subject.isExempt_eq_stance rule
  unfold failure?
  rw [RuleNode.reading]
  cases stance : subject.stance rule with
  | skipped =>
    rw [exempt, stance]
    exact .pure rfl
  | scored =>
    rw [exempt, stance]
    refine Returns.bind (fun _ => True) ?_ fun _ _ => .pure rfl
    intro progress
    obtain ⟨more, scored, _⟩ := scores stance progress.scores
    refine ⟨(), { progress with scores := more }, ?_, trivial⟩
    exact (run_bind_of_ok run_get _).trans (run_bind_of_ok (by rw [scored, run_lift]) _)
  | judged =>
    rw [exempt, stance]
    refine Returns.bind (· = judgement subject.value rule subject.context) ?_ ?_
    · exact fun progress => ⟨_, _, rfl, decides ..⟩
    · intro outcome known
      rw [known]
      exact .pure rfl

theorem failure?_returns {rule : Fields} (sound : RuleNode.Sound judgement subject (.rule rule)) :
    Returns (failure? backend subject rule)
      (ChildFailure.Tells · (RuleNode.reading judgement subject (.rule rule))) := by
  cases sound with
  | rule message error scores =>
    have canScore : subject.CanScore rule := by
      intro stance known
      obtain ⟨more, scored⟩ := scores stance known
      exact ⟨more, scored, trivial⟩
    refine (failure?_judged decides canScore).weaken fun failure? known => ?_
    rw [known]
    cases RuleNode.reading judgement subject (.rule rule) with
    | true => exact ⟨rfl, nofun⟩
    | false =>
      refine ⟨rfl, fun failure found => ?_⟩
      cases found
      exact Outcome.reason_text error message

/-- A group of which all is known examines like a rule with its reading as the outcome. -/
theorem examine_returns {node : RuleNode} (sound : node.Sound judgement subject) :
    Returns (examine backend subject node) (ChildFailure.Tells · (node.reading judgement subject)) := by
  induction sound with
  | rule message error scores => exact failure?_returns decides (.rule message error scores)
  | other => exact .pure ⟨rfl, nofun⟩
  | group conjunction own message members ih =>
    refine (collect_returns _ ih).bind _ fun findings tell => ?_
    obtain ⟨message?, given, reads⟩ := verdict?_returns tell conjunction
    rw [RuleNode.length_readings] at given
    refine Returns.bind (· = message?) (.lift given rfl) fun verdict? known => .pure ⟨?_, ?_⟩
    · rw [Option.isNone_map, known, reads, RuleNode.reading]
    · intro failure found
      obtain ⟨_, _, rfl⟩ := Option.map_eq_some_iff.mp found
      exact nestedReason_text own message

/-- Whatever the state of a pass, a group fails just if its reading is false, and it would not fare
otherwise if no group in it stopped early. -/
theorem evaluate_reads {operator : GroupOperator} {fields : Fields} {children : List RuleNode}
    (sound : (RuleNode.group operator fields children).Sound judgement subject) (progress : Progress σ) :
    (∃ message? later,
      (evaluate backend subject operator fields children).run.run progress = (.ok message?, later) ∧
      message?.isNone = (RuleNode.group operator fields children).reading judgement subject) ∧
    ∃ message? later,
      (evaluate backend subject operator (RuleNode.goingOn fields) (RuleNode.allWithoutStops children)).run.run
        progress = (.ok message?, later) ∧
      message?.isNone = (RuleNode.group operator fields children).reading judgement subject := by
  have returns {fields children} (sound : (RuleNode.group operator fields children).Sound judgement subject) :
      Returns (evaluate backend subject operator fields children)
        (·.isNone = (RuleNode.group operator fields children).reading judgement subject) := by
    cases sound with
    | group conjunction own message members =>
      refine (collect_returns _ fun child member => examine_returns decides (members child member)).bind _ ?_
      intro findings tell
      obtain ⟨message?, given, reads⟩ := verdict?_returns tell conjunction
      rw [RuleNode.length_readings] at given
      exact .lift given (by rw [reads, RuleNode.reading])
  refine ⟨returns sound progress, ?_⟩
  rw [← RuleNode.reading_withoutStops]
  exact returns sound.withoutStops progress

end Trees

/-- A backend that rejects everything, on a blank field that is not required. -/
theorem evaluate_reads_rejected :
    let backend : Backend Unit := fun _ rule _ state => (.ok (.failure rule "No"), state)
    let subject : Subject := ⟨.text "name", .text "", false, .ofData (.object [])⟩
    let asked : RuleNode := .rule [(.text "type", .text "required")]
    let scored : RuleNode := .rule [(.text "type", .text "computed"), (.text "subtype", .text "custom")]
    let email : RuleNode := .rule [(.text "type", .text "email"), (.text "message", .text "No address")]
    let stopping : Fields := [(.text "stopOnFirstError", .bool true)]
    ∃ message? later,
      (evaluate backend subject .and stopping [asked, scored, .group .or [] [email], .other]).run.run
        { backend := () } = (.ok message?, later) ∧ message?.isNone = false := by
  intro backend subject asked scored email stopping
  have decides : backend.Decides fun _ rule _ => .failure rule "No" := fun _ _ _ _ => rfl
  have members : ∀ child ∈ [asked, scored, .group .or [] [email], .other],
      child.Sound (fun _ rule _ => .failure rule "No") subject := by
    intro child member
    simp only [List.mem_cons, List.not_mem_nil, or_false] at member
    obtain rfl | rfl | rfl | rfl := member
    · exact .rule .absent (.text "No") nofun
    · exact .rule .absent (.text "No") fun _ scores => ⟨scores, rfl⟩
    · refine .group nofun .absent .absent fun child member => ?_
      obtain rfl := List.mem_singleton.mp member
      exact .rule (.text "No address") (.text "No address") nofun
    · exact .other
  have sound : (RuleNode.group .and stopping [asked, scored, .group .or [] [email], .other]).Sound
      (fun _ rule _ => .failure rule "No") subject := .group (fun _ => rfl) .absent .absent members
  exact (evaluate_reads decides sound { backend := () }).1

/-- A member with a list as its operator is no rule, and whether it is a group cannot be told. -/
theorem evaluate_unhashable_operator :
    let backend : Backend Unit := fun _ _ _ state => (.ok .pass, state)
    let subject : Subject := ⟨.text "name", .text "", false, .ofData (.object [])⟩
    let value : Value := .ofFields [("and", .list [.ofFields [("operator", .list [])]])]
    ∃ fields children,
      RuleNode.ofValue value = .group .and fields children ∧
      (RuleNode.group .and fields children).reading (fun _ _ _ => .pass) subject = true ∧
      (evaluate backend subject .and fields children).run.run { backend := () } =
        (.error (.type (.unhashable "list")), { backend := () }) :=
  ⟨_, _, rfl, rfl, rfl⟩

end Pass

end FormRules

import FormRules.Proofs.FormCompletion
import FormRules.Proofs.InheritedParts
import FormRules.Proofs.PassOutcome
import FormRules.Proofs.WritableReports

/-! The report of a pass over a form whose structure has been checked can be written if the form and the data can be,
whatever the data are and whatever another party answers. What could not be, a day or a moment as a name, comes neither
from the paths of fields, which are texts, nor from the names and categories under which scores are summed up. -/

namespace FormRules

/-- A backend that keeps an invariant of its state, and says of a failure only what can be written. -/
def Backend.SaysWritable (backend : Backend σ) (inv : σ → Prop) : Prop :=
  ∀ value rule context state, (Fields.get rule "message").IsMessage → inv state →
    (Pass.outcomeOf rule (backend value rule context state).1).error.isWritable = true ∧
      inv (backend value rule context state).2

/-- What the rules of a field at a path that is a text are checked against, if it can be written. -/
structure Subject.Writable (subject : Subject) (name : String) : Prop where
  path : subject.path = .text name
  value : subject.value.isWritable = true
  steps : ∀ step ∈ subject.context.path, step.isWritable = true

/-- The backend is in order, and the scores and the report can be written. -/
structure Progress.Writable (inv : σ → Prop) (progress : Progress σ) : Prop where
  backend : inv progress.backend
  scores : progress.scores.Writable Scoring.Score.Writable
  report : progress.report.Writable

namespace Pass

section Errors

theorem errorParams_isWritable {rule : Fields} (writable : rule.Writable (·.isWritable = true)) :
    (errorParams rule).isWritable = true := by
  have shown : ∀ param ∈ shownParams.map fun name => (name, Fields.get rule name), param.2.isWritable = true :=
    List.forall_mem_map.mpr fun name _ => Fields.get_isWritable writable name
  unfold errorParams
  rw [Value.isWritable_ofFields, List.all_append, Bool.and_eq_true, List.all_eq_true]
  refine ⟨fun param member => shown param (List.mem_filter.mp member).1, ?_⟩
  split
  · exact Bool.and_eq_true_iff.mpr ⟨Fields.get_isWritable writable _, rfl⟩
  · rfl

variable {subject : Subject} {name : String} (given : subject.Writable name)

include given

theorem errorPath_isWritable : (errorPath subject.context).isWritable = true := by
  unfold errorPath
  split
  · rfl
  · exact Value.areWritable_iff.mpr given.steps

theorem ruleError_isWritable {rule : Fields} (writable : rule.Writable (·.isWritable = true)) {outcome : Outcome}
    (told : outcome.error.isWritable = true) : (ruleError subject rule outcome).toValue.isWritable = true := by
  have own : ((Fields.get rule "message").orElse (.text "Validation failed")).isWritable = true :=
    Value.isWritable_orElse (Fields.get_isWritable writable "message") rfl
  exact FieldError.isWritable_toValue.mpr ⟨congrArg Value.isWritable given.path, Value.isWritable_orElse told own,
    Fields.get_isWritable writable "type", errorParams_isWritable writable, errorPath_isWritable given⟩

theorem groupError_isWritable (operator : GroupOperator) {message : Value} (told : message.isWritable = true) :
    (groupError subject operator message).toValue.isWritable = true :=
  FieldError.isWritable_toValue.mpr ⟨congrArg Value.isWritable given.path, told, rfl, rfl, errorPath_isWritable given⟩

end Errors

theorem groupMessage_isWritable {fields : Fields} (own : (Fields.get fields "groupMessage").IsMessage)
    (message : (Fields.get fields "message").IsMessage) (reasons : List Value) :
    Ensures (groupMessage fields reasons) (·.isWritable = true) := by
  unfold groupMessage
  simp only
  split
  · exact .ok (own.orElse message).isWritable
  · exact Ensures.any.map fun _ _ => rfl

theorem verdict?_isWritable {fields : Fields} (own : (Fields.get fields "groupMessage").IsMessage)
    (message : (Fields.get fields "message").IsMessage) (operator : GroupOperator) (children : Nat) (findings : Findings) :
    Ensures (verdict? operator fields children findings) fun message? => ∀ message ∈ message?, message.isWritable = true := by
  have told := groupMessage_isWritable own message findings.reasons
  unfold verdict?
  split
  · exact told.bind fun shown writable => .ok fun other same => Option.some.inj same ▸ writable
  split
  · refine told.bind fun shown writable => .ok fun other same => ?_
    exact Option.some.inj same ▸ Value.isWritable_orElse writable rfl
  · exact .ok nofun

theorem withScore_writable {scores : Keyed Scoring.Score} (before : scores.Writable Scoring.Score.Writable) (name : String)
    {value : Value} (given : value.isWritable = true) {rule : Fields} (writable : rule.Writable (·.isWritable = true)) :
    Ensures (withScore scores (.text name) value rule) (·.Writable Scoring.Score.Writable) := by
  unfold withScore scoreOf?
  refine Ensures.bind (p := fun score? => ∀ score ∈ score?, score.Writable) ?_ fun score? told => ?_
  · refine Ensures.any.bind fun subtype _ => ?_
    refine (Scoring.score?_writable writable given subtype).bind fun score? told => .ok fun score found => ?_
    obtain ⟨own, same, rfl⟩ := Option.map_eq_some_iff.mp found
    have parts := told own same
    exact ⟨rfl, parts.points, parts.penalty, parts.earned, parts.message, parts.answer, parts.expected⟩
  · cases score? with
    | none => exact .ok before
    | some score =>
      simp only
      split
      · exact .ok (before.insert rfl (told score rfl))
      · exact .ok before

/-- Steps that leave scores and reports in a state in which they can be written, and end with a good result if they end
without a fault. -/
def Writes {α : Type} (inv : σ → Prop) (steps : Pass σ α) (good : α → Prop) : Prop :=
  Leads (Progress.Writable inv) steps fun value later => later.Writable inv ∧ good value

namespace Writes

variable {σ α β : Type} {inv : σ → Prop} {good : α → Prop} {better : β → Prop}

theorem pure {value : α} (holds : good value) : Writes inv (pure value) good := Leads.pure fun _ start => ⟨start, holds⟩

theorem throw (fault : Fault) : Writes inv (throw fault) good := Leads.throw fault

theorem lift {result : Except Fault α} (ensures : Ensures result good) : Writes inv (liftM result) good := Leads.lift ensures

theorem bind {steps : Pass σ α} {next : α → Pass σ β} (first : Writes inv steps good)
    (rest : ∀ value, good value → Writes inv (next value) better) : Writes inv (steps >>= next) better :=
  Leads.bind _ first fun value => .assume (fun _ start => start.2) fun holds =>
    (rest value holds).weaken (fun _ start => start.1) fun _ _ last => last

end Writes

section Rules

variable {σ : Type} {inv : σ → Prop} {backend : Backend σ} (keeps : backend.SaysWritable inv) {subject : Subject}
  {name : String} (given : subject.Writable name)

theorem count_writes (change : Tally → Tally) : Writes inv (count change) fun _ => True :=
  Leads.modify fun _ start => ⟨⟨start.backend, start.scores, start.report.setTally _⟩, trivial⟩

include given

theorem score_writes {rule : Fields} (writable : rule.Writable (·.isWritable = true)) :
    Writes inv (score subject rule) fun _ => True := by
  refine Leads.bind _ .get fun before => .assume (fun _ start => start.2 ▸ start.1) fun start => ?_
  have scored := withScore_writable start.scores name given.value writable
  rw [← given.path] at scored
  exact Leads.bind _ (.lift scored) fun scores =>
    .set fun _ last => ⟨⟨start.backend, last.2, start.report⟩, trivial⟩

theorem addError_writes {error : FieldError} (named : error.field = subject.path)
    (told : error.toValue.isWritable = true) : Writes (σ := σ) inv (addError error) fun _ => True := by
  intro progress start _ later run
  simp only [addError, ExceptT.run, StateT.run, Report.addError_named (named.trans given.path)] at run
  cases run
  exact ⟨⟨start.backend, start.scores, start.report.noting told name⟩, trivial⟩

theorem failWith_writes {error : FieldError} (named : error.field = subject.path)
    (told : error.toValue.isWritable = true) : Writes (σ := σ) inv (failWith error) fun _ => True :=
  (count_writes _).bind fun _ _ => (addError_writes given named told).bind fun _ _ => .pure trivial

omit given in
theorem passed_writes : Writes (σ := σ) inv passed fun _ => True := (count_writes _).bind fun _ _ => .pure trivial

include keeps

omit given in
theorem judge_writes {rule : Fields} (message : (Fields.get rule "message").IsMessage) :
    Writes inv (judge backend subject rule) (·.error.isWritable = true) := by
  intro progress start _ later run
  cases run
  have kept := keeps subject.value rule subject.context progress.backend message start.backend
  exact ⟨⟨kept.2, start.scores, start.report⟩, kept.1⟩

theorem failure?_writes {rule : Fields} (message : (Fields.get rule "message").IsMessage)
    (writable : rule.Writable (·.isWritable = true)) : Writes inv (failure? backend subject rule) fun _ => True := by
  unfold failure?
  cases subject.stance rule with
  | skipped => exact .pure trivial
  | scored => exact (score_writes given writable).bind fun _ _ => .pure trivial
  | judged => exact (judge_writes keeps message).bind fun _ _ => .pure trivial

omit keeps given in
theorem collect_writes (stops : Bool) {children : List RuleNode}
    (examined : ∀ child ∈ children, Writes inv (examine backend subject child) fun _ => True) :
    Writes inv (collect backend subject stops children) fun _ => True := by
  induction children with
  | nil => exact .pure trivial
  | cons child rest ih =>
    obtain ⟨here, later⟩ := List.forall_mem_cons.mp examined
    unfold collect
    refine here.bind fun failure? _ => ?_
    cases failure? with
    | none => exact ih later
    | some failure =>
      cases stops with
      | true => exact .pure trivial
      | false => exact (ih later).bind fun _ _ => .pure trivial

theorem examine_writes {node : RuleNode} (accepted : node.Accepted)
    (writable : node.Consists (·.Writable (·.isWritable = true))) :
    Writes inv (examine backend subject node) fun _ => True := by
  induction accepted with
  | rule sound => exact failure?_writes keeps given sound.message (writable _ rfl _ List.mem_cons_self)
  | other => exact .pure trivial
  | group own message members ih =>
    have each := writable.of_group members
    refine (collect_writes _ fun child member => ih child member (each child member)).bind fun findings _ => ?_
    exact (Writes.lift .any).bind fun _ _ => .pure trivial

theorem checkRule_writes {rule : Fields} (message : (Fields.get rule "message").IsMessage)
    (writable : rule.Writable (·.isWritable = true)) : Writes inv (checkRule backend subject rule) fun _ => True := by
  refine (count_writes _).bind fun _ _ => ?_
  cases subject.stance rule with
  | skipped => exact (count_writes _).bind fun _ _ => .pure trivial
  | scored => exact (count_writes _).bind fun _ _ => (score_writes given writable).bind fun _ _ => .pure trivial
  | judged =>
    refine (judge_writes keeps message).bind fun outcome told => ?_
    split
    · exact passed_writes
    · exact failWith_writes given rfl (ruleError_isWritable given writable told)

/-- Checking a rule or a group adds nothing that cannot be written. -/
theorem checkNode_writes {node : RuleNode} (accepted : node.Accepted)
    (writable : node.Consists (·.Writable (·.isWritable = true))) :
    Writes inv (checkNode backend subject node) fun _ => True := by
  cases accepted with
  | rule sound => exact checkRule_writes keeps given sound.message (writable _ rfl _ List.mem_cons_self)
  | other => exact .pure trivial
  | group own message members =>
    have each := writable.of_group members
    refine (count_writes _).bind fun _ _ => ?_
    refine Writes.bind ((collect_writes _ fun child member =>
      examine_writes keeps given (members child member) (each child member)).bind fun findings _ =>
        .lift (verdict?_isWritable own message _ _ findings)) fun message? told => ?_
    cases message? with
    | none => exact passed_writes
    | some shown => exact failWith_writes given rfl (groupError_isWritable given _ (told shown rfl))

theorem checkNodes_writes {nodes : List RuleNode} (accepted : ∀ node ∈ nodes, node.Accepted)
    (writable : ∀ node ∈ nodes, node.Consists (·.Writable (·.isWritable = true))) :
    Writes inv (checkNodes backend subject nodes) fun _ => True := by
  induction nodes with
  | nil => exact .pure trivial
  | cons node nodes ih =>
    obtain ⟨here, later⟩ := List.forall_mem_cons.mp accepted
    obtain ⟨first, rest⟩ := List.forall_mem_cons.mp writable
    refine (checkNode_writes keeps given here first).bind fun failed _ => ?_
    exact (ih later rest).bind fun others _ => .pure trivial

theorem checkAll_writes {nodes : List RuleNode} (accepted : ∀ node ∈ nodes, node.Accepted)
    (writable : ∀ node ∈ nodes, node.Consists (·.Writable (·.isWritable = true))) :
    Writes inv (checkAll backend subject nodes) fun _ => True := by
  refine (checkNodes_writes keeps given accepted writable).bind fun failed _ => ?_
  split
  · refine Leads.bind _ .get fun before => .assume (fun _ start => start.2 ▸ start.1) fun start => ?_
    rw [given.path, Report.setValid_text, lift_ok_bind]
    exact .set fun _ _ => ⟨⟨start.backend, start.scores, start.report.clearing name⟩, trivial⟩
  · exact .pure trivial

end Rules

section Fields

variable {context : Context} (data : context.data.isWritable = true)

omit data in
theorem defaultFor_isWritable (type : Value) : Ensures (Form.defaultFor type) (·.isWritable = true) := by
  have plain (name : String) : (Form.defaultOf name).isWritable = true := by
    unfold Form.defaultOf
    repeat' split
    all_goals rfl
  unfold Form.defaultFor
  refine Ensures.any.bind fun key _ => ?_
  split
  · exact .ok (plain _)
  · exact .ok rfl

include data

theorem value_isWritable (field : Value) : Ensures (context.value field) (·.isWritable = true) := by
  refine Ensures.any.bind fun path _ => ?_
  refine (Path.walk?_ensures Value.inherited_isWritable data (Path.segments path)).bind fun value? found => ?_
  cases value? with
  | none => exact .ok rfl
  | some value => exact .ok (found value rfl)

theorem fieldValue_isWritable (path : Value) (fields : Fields) :
    Ensures (fieldValue context path fields) (·.isWritable = true) := by
  unfold fieldValue
  refine Ensures.bind (p := fun value? => ∀ value ∈ value?, value.isWritable = true) ?_ fun value? found => ?_
  · exact Ensures.any.bind fun name _ => Path.walk?_ensures Value.inherited_isWritable data (Path.segments name)
  · cases value? with
    | none => exact defaultFor_isWritable _
    | some value => exact .ok (found value rfl)

theorem subjectOf_writable (name : String) (fields : Fields) (isRequired : Bool) :
    Ensures (subjectOf context (.text name) fields isRequired) (·.Writable name) := by
  unfold subjectOf
  refine (fieldValue_isWritable data (.text name) fields).bind fun value writable => ?_
  exact .ok ⟨rfl, writable, List.forall_mem_map.mpr fun _ _ => rfl⟩

end Fields

section Items

variable {σ : Type} {inv : σ → Prop}

theorem skipField_writes (name reason : String) (rules : Nat) :
    Writes (σ := σ) inv (skipField (.text name) reason rules) fun _ => True := by
  refine Leads.bind _ .get fun before => .assume (fun _ start => start.2 ▸ start.1) fun start => ?_
  refine Leads.bind _ (.lift (start.report.setSkipped name reason)) fun report => ?_
  refine Leads.bind (fun _ => Progress.Writable inv) (.modify fun _ skipped => ?_) fun _ => count_writes _
  exact ⟨skipped.1.1.backend, skipped.1.1.scores, skipped.2⟩

theorem ownReport_writes {steps : Pass σ Unit} (writes : Writes inv steps fun _ => True) :
    Writes inv (ownReport steps) Report.Writable := by
  -- the report from before the steps is put back after them, and theirs is what they end with
  refine Leads.bind _ .get fun before => .assume (fun _ start => start.2 ▸ start.1) fun outer => ?_
  refine Leads.bind (fun _ => Progress.Writable inv) (.modify fun _ start => ?_) fun _ => ?_
  · exact ⟨start.1.backend, start.1.scores, Report.writable_counting⟩
  refine Leads.bind _ writes fun _ => Leads.bind _ .get fun last => ?_
  refine .assume (fun _ ended => ended.2 ▸ ended.1.1) fun own => ?_
  refine Leads.bind (fun _ => Progress.Writable inv) (.modify fun _ ended => ?_) fun _ => .pure fun _ kept => ⟨kept, own.report⟩
  exact ⟨ended.1.1.backend, ended.1.1.scores, outer.report⟩

variable {backend : Backend σ} (keeps : backend.SaysWritable inv) {context : Context} (data : context.data.isWritable = true)
  {fields : Fields} (sound : Form.SoundItem fields) (writable : (Value.object fields).isWritable = true)

include keeps data sound writable

theorem checkField_writes (name : String) :
    Writes inv (checkField backend context fields (.text name)) fun _ => True := by
  obtain ⟨rules, given, accepted⟩ := sound.rules
  have listed : ((Fields.get fields "validationRules").orElse (.list [])).isWritable = true :=
    Value.isWritable_orElse (Fields.get_isWritable (Value.haveWritable_iff.mp writable) _) rfl
  have nodes : ∀ node ∈ RuleNode.ofList rules, node.Consists (·.Writable (·.isWritable = true)) := by
    intro node member
    have consists := RuleNode.consists_ofList Value.inherited_isWritable (Value.items_isWritable listed rules given)
    exact (consists node member).weaken fun _ all rule taken => Value.haveWritable_iff.mp (all rule taken)
  unfold checkField
  rw [Form.ofRules_of_rulesOf given, lift_ok_bind]
  refine Writes.bind (.lift .any) fun asked _ => ?_
  simp only
  split
  · exact Writes.bind (.lift .any) fun leaves _ => skipField_writes name _ _
  split
  · exact .pure trivial
  · refine Writes.bind (.lift (subjectOf_writable data name fields _)) fun subject given => ?_
    exact checkAll_writes keeps given accepted nodes

theorem checkLeaf_writes (parent : String) :
    Writes inv (checkLeaf backend context fields (.text parent)) fun _ => True := by
  obtain ⟨_, place, name, rfl⟩ := Item.pathOf_yields sound parent
  unfold checkLeaf
  refine Writes.bind (.lift .any) fun sort _ => ?_
  split
  · rw [place, lift_ok_bind]
    exact checkField_writes keeps data sound writable name
  · exact .pure trivial

omit keeps data sound writable in
theorem checkItems_writes {items : List Item} {parent : Value}
    (each : ∀ item ∈ items, Writes inv (checkItem backend context parent item) Report.Writable) {report : Report}
    (before : report.Writable) : Writes inv (checkItems backend context parent report items) Report.Writable := by
  induction items generalizing report with
  | nil => exact .pure before
  | cons item items ih =>
    obtain ⟨here, later⟩ := List.forall_mem_cons.mp each
    unfold checkItems
    exact here.bind fun own writable => ih later (before.merge writable)

omit sound writable in
/-- The report of an item can be written if the fields that it holds can be. -/
theorem checkItem_writes {item : Item} (accepted : item.Accepted)
    (writable : ∀ fields ∈ item.leaves, (Value.object fields).isWritable = true) (parent : String) :
    Writes inv (checkItem backend context (.text parent) item) Report.Writable := by
  induction accepted generalizing parent with
  | leaf sound =>
    unfold checkItem
    exact ownReport_writes (checkLeaf_writes keeps data sound (writable _ List.mem_cons_self) parent)
  | container sound _ ih =>
    obtain ⟨_, place, name, rfl⟩ := Item.pathOf_yields sound parent
    have each := Item.forall_mem_leavesOfAll.mp writable
    unfold checkItem
    rw [place, lift_ok_bind]
    exact checkItems_writes (fun child member => ih child member (each child member) name) Report.writable_counting

end Items

end Pass

namespace FormScores

section Rules

variable {context : Context} (data : context.data.isWritable = true) {rule : Fields}
  (writable : rule.Writable (·.isWritable = true)) (sound : Form.SoundScoring rule) {all : FormScores}
  (before : all.Writable)

include writable sound before

theorem sumUp_writable : Ensures (sumUp rule all) FormScores.Writable := by
  refine (Scoring.ofScores_writable before.scores writable sound).bind fun rollup summed => ?_
  exact sound.name.asKey_plain.bind fun key plain => .ok ⟨before.scores, before.rollups.insert plain summed⟩

include data

theorem scoreField_writable : Ensures (scoreField context rule all) FormScores.Writable := by
  unfold scoreField
  simp only
  split
  next present =>
    obtain ⟨name, shape⟩ := sound.field.text_of_truthy present
    rw [shape]
    refine (Pass.value_isWritable data _).bind fun value given => ?_
    exact (Pass.withScore_writable before.scores name given writable).bind fun scores kept => .ok ⟨kept, before.rollups⟩
  next => exact .ok before

theorem apply_writable : Ensures (apply context rule all) FormScores.Writable := by
  unfold apply
  simp only
  split
  · exact scoreField_writable data writable sound before
  split
  · exact sumUp_writable writable sound before
  · exact .ok before

end Rules

theorem applyAll_writable {context : Context} (data : context.data.isWritable = true) {rules : List Value}
    (sound : ∀ rule ∈ rules, ∃ fields, rule = .object fields ∧ Form.SoundScoring fields)
    (writable : ∀ rule ∈ rules, rule.isWritable = true) {all : FormScores} (before : all.Writable) :
    Ensures (applyAll context all rules) FormScores.Writable := by
  induction rules generalizing all with
  | nil => exact .ok before
  | cons rule rules ih =>
    obtain ⟨⟨fields, rfl, scoring⟩, rest⟩ := List.forall_mem_cons.mp sound
    obtain ⟨here, later⟩ := List.forall_mem_cons.mp writable
    rw [applyAll_object]
    refine ih rest later ?_
    -- a rule that ends in a fault leaves the scores as they were
    have applied := apply_writable data (Value.haveWritable_iff.mp here) scoring before
    cases ended : apply context fields all with
    | error fault => exact before
    | ok more => exact applied more ended

end FormScores

namespace Pass

variable {σ : Type} {inv : σ → Prop} {backend : Backend σ} (keeps : backend.SaysWritable inv) {context : Context}
  (data : context.data.isWritable = true)

include keeps data

theorem checkForm_writes {fields : Fields} {items rules : List Value} (form : context.form = .object fields)
    (sound : Form.Sound fields items rules) (writable : (Value.object fields).isWritable = true) :
    Leads (Progress.Writable inv) (checkForm backend context) fun report _ => report.Writable := by
  have parts (name : String) : Ensures (listIn fields name) fun items => ∀ item ∈ items, item.isWritable = true :=
    Value.items_isWritable (Value.isWritable_orElse (Fields.get_isWritable (Value.haveWritable_iff.mp writable) name) rfl)
  have leaves := Item.forall_mem_leaves_ofList Value.inherited_isWritable (parts "items" items sound.listed)
  have checked : Writes inv (checkItems backend context (.text "") Report.counting (Item.ofList items)) Report.Writable :=
    checkItems_writes (fun item member => checkItem_writes keeps data (sound.accepted item member) (leaves item member) "")
      Report.writable_counting
  intro progress start report last run
  obtain ⟨known, items', gathered, rules', all, object, listed, ended, given, applied, rfl⟩ := checkForm_ok run
  rw [form] at object
  cases object
  obtain rfl := Except.ok.inj (listed.symm.trans sound.listed)
  obtain rfl := Except.ok.inj (given.symm.trans sound.given)
  obtain ⟨kept, writable⟩ := checked progress start gathered last ended
  have scores := FormScores.applyAll_writable data sound.scoring (parts _ _ given) ⟨kept.scores, .nil⟩ all applied
  exact scores.addTo writable

end Pass

namespace Rule

theorem Saying.isWritable {transport : Transport} {value : Value} (saying : Saying transport value) :
    value.isWritable = true := by
  cases saying with
  | own message => exact message.isWritable
  | quoted reply read present =>
    have document := Json.ofText_isWritable _ _ read
    exact Fields.get_isWritable (Value.haveWritable_iff.mp document) "message"

/-- Whatever another party answers, it is a document. -/
theorem saysWritable_check (means : Means) : (check means).SaysWritable (·.traffic.Sayings means.transport) := by
  intro value rule context session message kept
  obtain ⟨told, later⟩ := check_saying means message value context kept
  refine ⟨?_, later⟩
  cases ended : (check means value rule context session).1 with
  | error fault => exact (failureSaying_isMessage message _ _).isWritable
  | ok outcome => exact (told outcome ended).isWritable

end Rule

namespace Validator

theorem writable_brokenOff (fault : Fault) : (brokenOff fault).Writable := by
  have named : (systemError fault).field = .text "_global" := rfl
  have told : (systemError fault).toValue.isWritable = true :=
    FieldError.isWritable_toValue.mpr ⟨rfl, Value.isWritable_orElse rfl rfl, rfl, rfl, rfl⟩
  rw [brokenOff, Report.addError_named named]
  exact Report.writable_empty.noting told _

theorem writable_completed {settings : Settings} (tenant : settings.tenant.isWritable = true) (now : Moment)
    {graph : Dependency.Graph} (shown : graph.toValue.isWritable = true) {report : Report} (writable : report.Writable) :
    (completed settings now graph report).Writable := by
  have merged := Report.writable_empty.merge writable
  have about : (metadata settings now).isWritable = true := by
    simp only [metadata, Value.isWritable_ofFields, List.all_cons, List.all_nil, Bool.and_eq_true]
    exact ⟨rfl, rfl, rfl, tenant, trivial⟩
  refine ⟨merged.valid, merged.errors, merged.fields, merged.computed, about, ?_⟩
  show (if settings.devtools then graph.toValue else .null).isWritable = true
  split
  · exact shown
  · rfl

/-- Whatever comes of a pass over a form whose structure is in order, its report can be written. -/
theorem writable_validate (means : Rule.Means) {settings : Settings} {submission : Submission}
    (clean : Form.complaints submission.form = []) (form : submission.form.isWritable = true)
    (data : submission.data.isWritable = true) (tenant : settings.tenant.isWritable = true) :
    (validate (Rule.check means) settings submission {}).1.Writable := by
  obtain ⟨drawn, whole, last, known, run, report⟩ | ⟨fault, _, report⟩ :=
    validate_cases (Rule.check means) settings submission {}
  · obtain ⟨fields, items, rules, shape, sound⟩ := Form.sound_of_complaints clean
    have context := Submission.form_context shape settings
    rw [shape] at known form
    have start : Progress.Writable (·.traffic.Sayings means.transport) ({ backend := {} } : Progress Rule.Session) :=
      ⟨List.forall_mem_nil _, .nil, Report.writable_counting⟩
    have checked := Pass.checkForm_writes (Rule.saysWritable_check means) data context sound form _ start whole last run
    obtain ⟨_, _, _, paths⟩ := Dependency.Graph.paths_of_sound sound known
    have shown : drawn.toValue.isWritable = true := Dependency.Graph.isWritable_toValue fun node member => by
      obtain ⟨path, named⟩ := paths node member
      rw [named]
      rfl
    exact report ▸ writable_completed tenant submission.now shown checked
  · exact report ▸ writable_brokenOff fault

end Validator

end FormRules

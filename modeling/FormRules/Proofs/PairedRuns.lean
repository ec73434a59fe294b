import FormRules.Proofs.FormCompletion
import FormRules.Proofs.GroupVerdict

/-! Two runs of the same steps side by side, with backends that answer alike and contexts of the same data. What one
of them comes to the other comes to as well: the same fault, or the same result and the same report. -/

namespace FormRules

namespace RuleNode

variable {property : Fields → Prop}

mutual

/-- What holds of the rules of a node that can be taken apart holds of the node. -/
theorem each_of_leaves : (node : RuleNode) → ∀ {rules}, node.leaves = .ok rules → (∀ rule ∈ rules, property rule) →
    node.Each property
  | .rule fields, _, taken, all => by
    cases taken
    exact .rule (all fields List.mem_cons_self)
  | .group _ _ children, _, taken, all => .group (each_of_leavesOfAll children taken all)
  | .other, _, _, _ => .other
  | .faulty _, _, taken, _ => nomatch taken

theorem each_of_leavesOfAll : (nodes : List RuleNode) → ∀ {rules}, leavesOfAll nodes = .ok rules →
    (∀ rule ∈ rules, property rule) → ∀ node ∈ nodes, node.Each property
  | [], _, _, _ => List.forall_mem_nil _
  | node :: nodes, _, taken, all => by
    obtain ⟨own, here, taken⟩ := Fault.of_bind_ok taken
    obtain ⟨others, later, taken⟩ := Fault.of_bind_ok taken
    cases taken
    obtain ⟨first, rest⟩ := List.forall_mem_append.mp all
    exact List.forall_mem_cons.mpr ⟨each_of_leaves node here first, each_of_leavesOfAll nodes later rest⟩

end

end RuleNode

namespace Subject

/-- The same subject in another context, at the same place. -/
def within (subject : Subject) (context : Context) : Subject :=
  { subject with context := context.child subject.context.path }

theorem stance_within (subject : Subject) {context : Context} (data : subject.context.data = context.data)
    (rule : Fields) : (subject.within context).stance rule = subject.stance rule := by
  unfold stance within Context.child Context.source
  rw [data]

end Subject

namespace Pass

variable {σ τ α β : Type} {related : Progress σ → Progress τ → Prop}

/-- From progress that is related two runs end in the same fault, or in the same result and in progress that is
related again. -/
def Paired (related : Progress σ → Progress τ → Prop) (first : Pass σ α) (second : Pass τ α) : Prop :=
  ∀ p q, related p q →
    (∃ fault p' q', first.run.run p = (.error fault, p') ∧ second.run.run q = (.error fault, q')) ∨
      ∃ value p' q', first.run.run p = (.ok value, p') ∧ second.run.run q = (.ok value, q') ∧ related p' q'

namespace Paired

theorem pure (value : α) : Paired related (pure value) (pure value) :=
  fun p q start => .inr ⟨value, p, q, rfl, rfl, start⟩

theorem throw (fault : Fault) : Paired related (throw fault : Pass σ α) (throw fault) :=
  fun p q _ => .inl ⟨fault, p, q, rfl, rfl⟩

theorem lift (result : Except Fault α) : Paired related (liftM result) (liftM result) := by
  intro p q start
  cases result with
  | error fault => exact .inl ⟨fault, p, q, rfl, rfl⟩
  | ok value => exact .inr ⟨value, p, q, rfl, rfl, start⟩

theorem bind {first : Pass σ α} {second : Pass τ α} {next : α → Pass σ β} {next' : α → Pass τ β}
    (paired : Paired related first second) (rest : ∀ value, Paired related (next value) (next' value)) :
    Paired related (first >>= next) (second >>= next') := by
  intro p q start
  rw [run_bind, run_bind]
  obtain ⟨fault, p', q', left, right⟩ | ⟨value, p', q', left, right, later⟩ := paired p q start
  · rw [left, right]
    exact .inl ⟨fault, p', q', rfl, rfl⟩
  · rw [left, right]
    exact rest value p' q' later

theorem lift_bind {result : Except Fault α} {next : α → Pass σ β} {next' : α → Pass τ β}
    (rest : ∀ value, result = .ok value → Paired related (next value) (next' value)) :
    Paired related (liftM result >>= next) (liftM result >>= next') := by
  cases result with
  | error fault => exact .throw fault
  | ok value => exact rest value rfl

theorem result_eq {first : Pass σ α} {second : Pass τ α} (paired : Paired related first second) {p : Progress σ}
    {q : Progress τ} (start : related p q) : (first.run.run p).1 = (second.run.run q).1 := by
  obtain ⟨fault, _, _, left, right⟩ | ⟨value, _, _, left, right, _⟩ := paired p q start <;> rw [left, right]

end Paired

/-- Progress with backends and scores that are related, and with one report. -/
structure Twins (states : σ → τ → Prop) (scored : Keyed Scoring.Score → Keyed Scoring.Score → Prop)
    (p : Progress σ) (q : Progress τ) : Prop where
  backend : states p.backend q.backend
  scores : scored p.scores q.scores
  report : p.report = q.report

/-! Steps that write into the report. -/

section Reports

variable {states : σ → τ → Prop} {scored : Keyed Scoring.Score → Keyed Scoring.Score → Prop}

theorem Twins.withReport {p : Progress σ} {q : Progress τ} (twins : Twins states scored p q) (report : Report) :
    Twins states scored { p with report } { q with report } :=
  ⟨twins.backend, twins.scores, rfl⟩

/-- Steps that read and change nothing but the report. -/
def Reports (change : Report → Except Fault α × Report) (steps : Pass σ α) : Prop :=
  ∀ p, steps.run.run p = ((change p.report).1, { p with report := (change p.report).2 })

theorem Reports.paired {change : Report → Except Fault α × Report} {first : Pass σ α} {second : Pass τ α}
    (left : Reports change first) (right : Reports change second) : Paired (Twins states scored) first second := by
  intro p q twins
  rw [left, right, twins.report]
  cases change q.report with
  | mk result report =>
    cases result with
    | error fault => exact .inl ⟨fault, _, _, rfl, rfl⟩
    | ok value => exact .inr ⟨value, _, _, rfl, rfl, twins.withReport report⟩

theorem count_reports (change : Tally → Tally) : Reports (σ := σ)
    (fun report => (.ok (), { report with tally? := report.tally?.map change })) (count change) := fun _ => rfl

theorem addError_reports (error : FieldError) : Reports (σ := σ) (·.addError error) (addError error) := fun _ => rfl

/-- A change of the report that is made as a whole or not at all. -/
def changed (change : Report → Except Fault Report) (report : Report) : Except Fault Unit × Report :=
  match change report with
  | .ok later => (.ok (), later)
  | .error fault => (.error fault, report)

theorem setValid_reports (path : Value) : Reports (changed (·.setValid path)) (show Pass σ Unit from do
    let progress ← get
    let report ← progress.report.setValid path
    set { progress with report }) := by
  intro p
  unfold changed
  rw [run_bind, run_get]
  simp only
  cases p.report.setValid path <;> rfl

theorem skipField_reports (path : Value) (reason : String) (rules : Nat) : Reports (σ := σ)
    (changed fun report => (report.setSkipped path (.text reason)).map fun later =>
      { later with tally? := later.tally?.map (·.skipAll rules) }) (skipField path reason rules) := by
  intro p
  unfold changed skipField
  rw [run_bind, run_get]
  simp only
  cases p.report.setSkipped path (.text reason) <;> rfl

theorem count_paired (change : Tally → Tally) : Paired (Twins states scored) (count change) (count change) :=
  (count_reports change).paired (count_reports change)

theorem passed_paired : Paired (Twins states scored) (σ := σ) (τ := τ) passed passed :=
  (count_paired _).bind fun _ => .pure false

theorem failWith_paired (error : FieldError) : Paired (Twins states scored) (failWith error) (failWith error) := by
  refine (count_paired _).bind fun _ => ?_
  exact ((addError_reports error).paired (addError_reports error)).bind fun _ => .pure true

/-- Steps with a report of their own, which ends up as their result. -/
theorem ownReport_run (steps : Pass σ Unit) (p : Progress σ) : (ownReport steps).run.run p =
    match steps.run.run { p with report := Report.counting } with
    | (.ok _, later) => (.ok later.report, { later with report := p.report })
    | (.error fault, later) => (.error fault, later) := by
  have started : (modify ({ · with report := Report.counting }) : Pass σ Unit).run.run p =
      (.ok (), { p with report := Report.counting }) := rfl
  unfold ownReport
  rw [run_bind_of_ok run_get, run_bind_of_ok started, run_bind]
  rcases steps.run.run { p with report := Report.counting } with ⟨_ | _, later⟩ <;> rfl

theorem ownReport_paired {first : Pass σ Unit} {second : Pass τ Unit}
    (paired : Paired (Twins states scored) first second) :
    Paired (Twins states scored) (ownReport first) (ownReport second) := by
  intro p q twins
  rw [ownReport_run, ownReport_run]
  obtain ⟨fault, p', q', left, right⟩ | ⟨value, p', q', left, right, later⟩ :=
    paired _ _ (twins.withReport Report.counting)
  · rw [left, right]
    exact .inl ⟨fault, p', q', rfl, rfl⟩
  · rw [left, right]
    simp only
    rw [later.report, twins.report]
    exact .inr ⟨q'.report, _, _, rfl, rfl, later.withReport q.report⟩

end Reports

/-! Rules, groups and fields. -/

/-- A rule keeps scores, whatever they are, or puts one in them under the path of the field, or it is at fault. -/
theorem withScore_cases (field value : Value) (rule : Fields) :
    (∃ fault, ∀ scores, withScore scores field value rule = .error fault) ∨
      (∀ scores, withScore scores field value rule = .ok scores) ∨
      ∃ key score, field.asKey = .ok key ∧
        ∀ scores, withScore scores field value rule = .ok (Keyed.insert scores key score) := by
  unfold withScore
  cases scoreOf? field value rule with
  | error fault => exact .inl ⟨fault, fun _ => rfl⟩
  | ok score? =>
    cases score? with
    | none => exact .inr (.inl fun _ => rfl)
    | some score =>
      cases stored : isStored rule with
      | false => exact .inr (.inl fun _ => rfl)
      | true =>
        cases field.asKey with
        | error fault => exact .inl ⟨fault, fun _ => rfl⟩
        | ok key => exact .inr (.inr ⟨key, score, rfl, fun _ => rfl⟩)

theorem score_run (subject : Subject) (rule : Fields) (p : Progress σ) : (score subject rule).run.run p =
    match withScore p.scores subject.path subject.value rule with
    | .ok scores => (.ok (), { p with scores })
    | .error fault => (.error fault, p) := by
  unfold score
  rw [run_bind_of_ok run_get]
  cases withScore p.scores subject.path subject.value rule <;> rfl

section Trees

variable {states : σ → τ → Prop} {scored : Keyed Scoring.Score → Keyed Scoring.Score → Prop}

theorem score_paired {subject : Subject} {rule : Fields} (closed : ∀ key, subject.path.asKey = .ok key →
      ∀ score s t, scored s t → scored (Keyed.insert s key score) (Keyed.insert t key score)) :
    Paired (Twins states scored) (σ := σ) (τ := τ) (score subject rule) (score subject rule) := by
  intro p q twins
  rw [score_run, score_run]
  obtain ⟨fault, ended⟩ | kept | ⟨key, score, known, ended⟩ := withScore_cases subject.path subject.value rule
  · rw [ended, ended]
    exact .inl ⟨fault, p, q, rfl, rfl⟩
  · rw [kept, kept]
    exact .inr ⟨(), p, q, rfl, rfl, twins⟩
  · rw [ended, ended]
    exact .inr ⟨(), _, _, rfl, rfl, twins.backend, closed key known score _ _ twins.scores, twins.report⟩

variable (states scored) (backend : Backend σ) (backend' : Backend τ) (subject : Subject) (context : Context)

/-- What keeps two runs together at a rule: where it is judged, related backends come to one outcome and stay
related; where it scores, scores stay related with another one under the path of the field. -/
structure Handled (rule : Fields) : Prop where
  judged : subject.stance rule = .judged → ∀ s t, states s t →
    let judged := backend subject.value rule subject.context s
    let judged' := backend' subject.value rule (context.child subject.context.path) t
    outcomeOf rule judged.1 = outcomeOf rule judged'.1 ∧ states judged.2 judged'.2
  scored : subject.stance rule = .scored → ∀ key, subject.path.asKey = .ok key → ∀ score s t, scored s t →
    scored (Keyed.insert s key score) (Keyed.insert t key score)

variable {states scored backend backend' subject context} (data : subject.context.data = context.data)

theorem judge_paired {rule : Fields} (handled : Handled states scored backend backend' subject context rule)
    (judged : subject.stance rule = .judged) :
    Paired (Twins states scored) (judge backend subject rule) (judge backend' (subject.within context) rule) := by
  intro p q twins
  obtain ⟨same, later⟩ := handled.judged judged p.backend q.backend twins.backend
  exact .inr ⟨_, _, _, rfl, congrArg (fun outcome => (Except.ok outcome, _)) same.symm, later, twins.scores, twins.report⟩

theorem collect_paired {children : List RuleNode} (stops : Bool) (examined : ∀ child ∈ children,
      Paired (Twins states scored) (examine backend subject child) (examine backend' (subject.within context) child)) :
    Paired (Twins states scored) (collect backend subject stops children)
      (collect backend' (subject.within context) stops children) := by
  induction children with
  | nil => exact .pure _
  | cons child rest ih =>
    obtain ⟨first, others⟩ := List.forall_mem_cons.mp examined
    refine first.bind fun failure? => ?_
    cases failure? with
    | none => exact ih others
    | some failure =>
      cases stops with
      | true => exact .pure _
      | false => exact (ih others).bind fun findings => .pure _

include data

theorem failure?_paired {rule : Fields} (handled : Handled states scored backend backend' subject context rule) :
    Paired (Twins states scored) (failure? backend subject rule) (failure? backend' (subject.within context) rule) := by
  unfold failure?
  rw [subject.stance_within data]
  cases stance : subject.stance rule with
  | skipped => exact .pure none
  | scored => exact (score_paired (handled.scored stance)).bind fun _ => .pure none
  | judged => exact (judge_paired handled stance).bind fun _ => .pure _

theorem examine_paired {node : RuleNode} (each : node.Each (Handled states scored backend backend' subject context)) :
    Paired (Twins states scored) (examine backend subject node) (examine backend' (subject.within context) node) := by
  induction each with
  | rule handled => exact failure?_paired data handled
  | other => exact .pure none
  | group _ ih =>
    exact (collect_paired _ ih).bind fun findings => (Paired.lift _).bind fun verdict? => .pure _

theorem checkRule_paired {rule : Fields} (handled : Handled states scored backend backend' subject context rule) :
    Paired (Twins states scored) (checkRule backend subject rule) (checkRule backend' (subject.within context) rule) := by
  refine (count_paired _).bind fun _ => ?_
  rw [subject.stance_within data]
  cases stance : subject.stance rule with
  | skipped => exact (count_paired _).bind fun _ => .pure false
  | scored => exact (count_paired _).bind fun _ => (score_paired (handled.scored stance)).bind fun _ => .pure false
  | judged =>
    refine (judge_paired handled stance).bind fun outcome => ?_
    split
    · exact passed_paired
    · exact failWith_paired _

theorem checkNode_paired {node : RuleNode} (each : node.Each (Handled states scored backend backend' subject context)) :
    Paired (Twins states scored) (checkNode backend subject node) (checkNode backend' (subject.within context) node) := by
  cases each with
  | rule handled => exact checkRule_paired data handled
  | other => exact .pure false
  | @group operator fields children members =>
    have examined := fun child member => examine_paired data (members child member)
    refine (count_paired _).bind fun _ => Paired.bind ?_ fun message? => ?_
    · exact (collect_paired _ examined).bind fun findings => .lift _
    · cases message? with
      | none => exact passed_paired
      | some message => exact failWith_paired _

theorem checkAll_paired {nodes : List RuleNode}
    (each : ∀ node ∈ nodes, node.Each (Handled states scored backend backend' subject context)) :
    Paired (Twins states scored) (checkAll backend subject nodes) (checkAll backend' (subject.within context) nodes) := by
  have all : Paired (Twins states scored) (checkNodes backend subject nodes)
      (checkNodes backend' (subject.within context) nodes) := by
    induction nodes with
    | nil => exact .pure false
    | cons node nodes ih =>
      obtain ⟨first, others⟩ := List.forall_mem_cons.mp each
      exact (checkNode_paired data first).bind fun _ => (ih others).bind fun _ => .pure _
  refine all.bind fun failed => ?_
  cases failed with
  | true => exact .pure ()
  | false => exact (setValid_reports subject.path).paired (setValid_reports subject.path)

end Trees

/-- The rules that score a form as a whole know of the context only its data. -/
theorem applyAll_congr {first second : Context} (data : first.data = second.data) (all : FormScores) (rules : List Value) :
    FormScores.applyAll first all rules = FormScores.applyAll second all rules := by
  have same (rule : Fields) (all : FormScores) : FormScores.apply first rule all = FormScores.apply second rule all := by
    unfold FormScores.apply FormScores.scoreField Context.value Context.source
    rw [data]
  induction rules generalizing all with
  | nil => rfl
  | cons rule rules ih => simp only [FormScores.applyAll, same, ih]

/-- A pass that comes to a field with these entries at a path has to do with a rule for a subject. -/
inductive Poses (context : Context) (path : Value) (fields : Fields) : Subject → Fields → Prop
  | rule {nodes : List RuleNode} {leaves : List Fields} {asked : Bool} {subject : Subject} {rule : Fields}
      (given : RuleNode.ofRules ((Fields.get fields "validationRules").orElse (.list [])) = .ok nodes)
      (kinds : RuleNode.hasKind nodes .required = .ok asked) (taken : RuleNode.leavesOfAll nodes = .ok leaves)
      (member : rule ∈ leaves) (shown : (FieldState.ofFields context.source fields asked).skipReason? = none)
      (known : subjectOf context path fields (FieldState.ofFields context.source fields asked).isRequired = .ok subject) :
      Poses context path fields subject rule

theorem Poses.inside {context : Context} {path : Value} {fields rule : Fields} {subject : Subject}
    (poses : Poses context path fields subject rule) : subject.context = context.child subject.context.path := by
  cases poses with
  | rule given kinds taken member shown known =>
    obtain ⟨name, value, _, rfl⟩ := subjectOf_ok known
    rfl

section Items

variable {states : σ → τ → Prop} {scored : Keyed Scoring.Score → Keyed Scoring.Score → Prop} {backend : Backend σ}
  {backend' : Backend τ} {first second : Context} (data : first.data = second.data)

include data

theorem subjectOf_within (path : Value) (fields : Fields) (isRequired : Bool) :
    subjectOf second path fields isRequired = (subjectOf first path fields isRequired).map (·.within second) := by
  have same : fieldValue second path fields = fieldValue first path fields := by
    unfold fieldValue Context.find?
    rw [data]
  unfold subjectOf
  rw [same]
  cases fieldValue first path fields with
  | error fault => rfl
  | ok value => cases path.asText "split" <;> rfl

theorem checkField_paired {path : Value} {fields : Fields} (handled : ∀ subject rule,
      Poses first path fields subject rule → Handled states scored backend backend' subject second rule) :
    Paired (Twins states scored) (checkField backend first fields path) (checkField backend' second fields path) := by
  have source : second.source = first.source := by rw [Context.source, Context.source, data]
  refine Paired.lift_bind fun nodes given => Paired.lift_bind fun asked kinds => ?_
  simp only [source]
  split
  next reason _ => exact (Paired.lift _).bind fun leaves =>
      (skipField_reports path reason _).paired (skipField_reports path reason _)
  next shown =>
    split
    · exact .pure ()
    · rw [subjectOf_within data]
      cases known : subjectOf first path fields (FieldState.ofFields first.source fields asked).isRequired with
      | error fault => exact .throw fault
      | ok subject =>
        have place : subject.context.data = second.data := by
          obtain ⟨name, value, _, rfl⟩ := subjectOf_ok known
          exact data
        obtain ⟨leaves, taken, _⟩ := Fault.of_bind_ok kinds
        refine checkAll_paired place (RuleNode.each_of_leavesOfAll nodes taken fun rule member => ?_)
        exact handled subject rule ⟨given, kinds, taken, member, shown, known⟩

theorem checkLeaf_paired {parent : Value} {fields : Fields}
    (handled : ∀ path own, Item.Holds parent (.leaf fields) path own →
      ∀ subject rule, Poses first path own subject rule → Handled states scored backend backend' subject second rule) :
    Paired (Twins states scored) (checkLeaf backend first fields parent) (checkLeaf backend' second fields parent) := by
  refine Paired.lift_bind fun sort known => ?_
  split
  next named =>
    rw [Bool.and_eq_true, beq_iff_eq] at named
    refine Paired.lift_bind fun path place => checkField_paired data (handled path fields ?_)
    exact .leaf (named.1 ▸ known) named.2 place
  next => exact .pure ()

omit data

mutual

theorem checkItem_paired (data : first.data = second.data) : (item : Item) → ∀ parent,
    (∀ path fields, item.Holds parent path fields → ∀ subject rule, Poses first path fields subject rule →
      Handled states scored backend backend' subject second rule) →
    Paired (Twins states scored) (checkItem backend first parent item) (checkItem backend' second parent item)
  | .stray _, _, _ => .throw _
  | .untyped _ fault, _, _ => .throw fault
  | .leaf _, _, handled => ownReport_paired (checkLeaf_paired data handled)
  | .container _ children, _, handled => Paired.lift_bind fun path place =>
    checkItems_paired data children path Report.counting fun _ member inner fields holds =>
      handled inner fields (.container place member holds)

theorem checkItems_paired (data : first.data = second.data) : (items : List Item) → ∀ parent report,
    (∀ item ∈ items, ∀ path fields, item.Holds parent path fields → ∀ subject rule, Poses first path fields subject rule →
      Handled states scored backend backend' subject second rule) →
    Paired (Twins states scored) (checkItems backend first parent report items)
      (checkItems backend' second parent report items)
  | [], _, report, _ => .pure report
  | item :: items, parent, report, handled => by
    obtain ⟨here, others⟩ := List.forall_mem_cons.mp handled
    refine (checkItem_paired data item parent here).bind fun own => ?_
    exact checkItems_paired data items parent (report.merge own) others

end

end Items

end Pass

end FormRules

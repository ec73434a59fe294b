import FormRules.Proofs.AcceptedRules
import FormRules.Proofs.PassLogic
import FormRules.Proofs.ReportConsistency

/-! The rules of a field come to an end whatever they are checked against: their faults, and those of the backend,
are failures of the rules, and the field is in the report. The rules have the structure of known ones, what they
score can be scored, and what the backend says of a failure is a text. -/

namespace FormRules

/-- An error that a rule or a group has raised. -/
def FieldError.IsRaised (error : FieldError) : Prop :=
  error.rule = .text "group" ∨ ∃ kind, RuleKind.ofValue? error.rule = some kind

namespace Report

/-- Whether a report has an outcome for a field. -/
def Knows (report : Report) (name : String) : Prop := Keyed.has report.fields (.text name) = true

/-- Whether all errors of a report have been raised by rules and groups. -/
def Raised (report : Report) : Prop := ∀ error ∈ report.errors, error.IsRaised

variable {report later : Report} {name : String}

theorem has_mergeFields (fields more : Keyed FieldOutcome) (key : Scalar) :
    Keyed.has (mergeFields fields more) key = (Keyed.has fields key || Keyed.has more key) := by
  rw [mergeFields_eq_joinAll, Keyed.has_joinAll]

theorem Knows.merge_left (known : report.Knows name) (later : Report) : (report.merge later).Knows name := by
  unfold Knows at known ⊢
  rw [Report.merge, has_mergeFields, known, Bool.true_or]

theorem Knows.merge_right (report : Report) (known : later.Knows name) : (report.merge later).Knows name := by
  unfold Knows at known ⊢
  rw [Report.merge, has_mergeFields, known, Bool.or_true]

theorem Raised.merge (first : report.Raised) (second : later.Raised) : (report.merge later).Raised :=
  List.forall_mem_append.mpr ⟨first, second⟩

theorem raised_counting : counting.Raised := List.forall_mem_nil _

theorem addError_known (raised : report.Raised) {error : FieldError} (named : error.field = .text name)
    (own : error.IsRaised) : ∃ later, report.addError error = (.ok (), later) ∧ later.Raised ∧ later.Knows name := by
  have key : error.field.asKey = .ok (.text name) := by rw [named]; rfl
  have all : ∀ other ∈ report.errors ++ [error], other.IsRaised :=
    List.forall_mem_append.mpr ⟨raised, List.forall_mem_singleton.mpr own⟩
  unfold addError
  rw [key]
  exact ⟨_, rfl, all, Keyed.has_insert_text_self report.fields name _⟩

theorem setValid_known (raised : report.Raised) (name : String) :
    Yields (report.setValid (.text name)) fun later => later.Raised ∧ later.Knows name :=
  ⟨_, rfl, raised, Keyed.has_insert_text_self report.fields name _⟩

theorem setSkipped_known (raised : report.Raised) (name : String) (reason : Value) :
    Yields (report.setSkipped (.text name) reason) fun later => later.Raised ∧ later.Knows name :=
  ⟨_, rfl, raised, Keyed.has_insert_text_self report.fields name _⟩

end Report

/-- A backend that keeps an invariant of its state, and has only texts to say about rules whose messages are texts. -/
def Backend.Keeps (backend : Backend σ) (inv : σ → Prop) : Prop :=
  ∀ value rule context state, (Fields.get rule "message").IsMessage → inv state →
    (Pass.outcomeOf rule (backend value rule context state).1).error.IsMessage ∧
      inv (backend value rule context state).2

/-- Whether all rules of a node can score the value of a field. -/
def RuleNode.CanScore (node : RuleNode) (subject : Subject) : Prop :=
  ∀ rules, node.leaves = .ok rules → ∀ rule ∈ rules, subject.CanScore rule

/-- The backend is in order and so is the report, which knows the field at hand if it has to. -/
structure Progress.Fine (inv : σ → Prop) (name : String) (known : Bool) (progress : Progress σ) : Prop where
  backend : inv progress.backend
  raised : progress.report.Raised
  known : known = true → progress.report.Knows name

namespace Pass

section Rules

variable {σ : Type} {inv : σ → Prop} {backend : Backend σ} (keeps : backend.Keeps inv) {subject : Subject} {name : String}
  {known : Bool}

theorem count_completes (change : Tally → Tally) :
    Completes (Progress.Fine inv name known) (count change) fun _ => Progress.Fine inv name known :=
  .modify fun _ fine => ⟨fine.backend, fine.raised, fine.known⟩

theorem score_completes {rule : Fields} (can : subject.CanScore rule) (scored : subject.stance rule = .scored) :
    Completes (Progress.Fine inv name known) (score subject rule) fun _ => Progress.Fine inv name known := by
  refine Completes.bind _ .get fun before => ?_
  refine Completes.bind _ (.lift (can scored before.scores) fun _ _ _ start => start) fun scores => .set ?_
  rintro _ ⟨fine, rfl⟩
  exact ⟨fine.backend, fine.raised, fine.known⟩

include keeps in
theorem judge_completes {rule : Fields} (message : (Fields.get rule "message").IsMessage) :
    Completes (Progress.Fine inv name known) (judge backend subject rule) fun outcome later =>
      later.Fine inv name known ∧ outcome.error.IsMessage := by
  intro progress fine
  have kept := keeps subject.value rule subject.context progress.backend message fine.backend
  exact ⟨_, _, rfl, ⟨kept.2, fine.raised, fine.known⟩, kept.1⟩

/-- A failure whose reason is a text, if there is one. -/
def ChildFailure.IsText (failure? : Option ChildFailure) : Prop :=
  ∀ failure, failure? = some failure → ∃ shown, failure.reason = .text shown

/-- Findings whose reasons are texts. -/
def Findings.AreTexts (findings : Findings) : Prop := ∀ reason ∈ findings.reasons, ∃ shown, reason = .text shown

theorem verdict?_yields (operator : GroupOperator) (fields : Fields) (children : Nat) {findings : Findings}
    (texts : findings.AreTexts) : Yields (verdict? operator fields children findings) fun _ => True := by
  have message := groupMessage_yields fields texts
  unfold verdict?
  split
  · exact message.bind fun _ _ => .ok trivial
  · split
    · exact message.bind fun _ _ => .ok trivial
    · exact .ok trivial

include keeps in
theorem failure?_completes {rule : Fields} (message : (Fields.get rule "message").IsMessage)
    (can : subject.CanScore rule) :
    Completes (Progress.Fine inv name known) (failure? backend subject rule) fun failure? later =>
      later.Fine inv name known ∧ ChildFailure.IsText failure? := by
  unfold failure?
  cases stance : subject.stance rule with
  | skipped => exact .pure fun _ fine => ⟨fine, nofun⟩
  | scored => exact (score_completes can stance).bind _ fun _ => .pure fun _ fine => ⟨fine, nofun⟩
  | judged =>
    refine (judge_completes keeps message).bind _ fun outcome => .pure ?_
    rintro later ⟨fine, said⟩
    refine ⟨fine, fun failure found => ?_⟩
    split at found
    next => cases found
    next =>
      obtain rfl := Option.some.inj found
      exact Outcome.reason_text said message

theorem collect_completes (stops : Bool) {children : List RuleNode}
    (examined : ∀ child ∈ children, Completes (Progress.Fine inv name known) (examine backend subject child)
      fun failure? later => later.Fine inv name known ∧ ChildFailure.IsText failure?) :
    Completes (Progress.Fine inv name known) (collect backend subject stops children) fun findings later =>
      later.Fine inv name known ∧ findings.AreTexts := by
  induction children with
  | nil => exact .pure fun _ fine => ⟨fine, List.forall_mem_nil _⟩
  | cons child rest ih =>
    obtain ⟨here, later⟩ := List.forall_mem_cons.mp examined
    unfold collect
    refine here.bind _ fun failure? => .assume (fun _ start => start.2) fun text => ?_
    cases failure? with
    | none => exact (ih later).restrict fun _ start => start.1
    | some failure =>
      have own := text failure rfl
      -- A group that stops here has only this failure to tell.
      cases stops with
      | true => exact .pure fun _ start => ⟨start.1, List.forall_mem_singleton.mpr own⟩
      | false =>
        refine Completes.bind _ ((ih later).restrict fun _ start => start.1) fun findings => .pure ?_
        rintro _ ⟨fine, texts⟩
        exact ⟨fine, List.forall_mem_cons.mpr ⟨own, texts⟩⟩

include keeps in
/-- Examining a member of a group comes to an end, and a failure of it has a text as its reason. -/
theorem examine_completes {node : RuleNode} (accepted : node.Accepted) (can : node.CanScore subject) :
    Completes (Progress.Fine inv name known) (examine backend subject node) fun failure? later =>
      later.Fine inv name known ∧ ChildFailure.IsText failure? := by
  induction accepted with
  | rule sound =>
    exact failure?_completes keeps sound.message (can _ rfl _ List.mem_cons_self)
  | other => exact .pure fun _ fine => ⟨fine, nofun⟩
  | group own message members ih =>
    have each := RuleNode.Consists.of_group members can
    refine (collect_completes _ fun child member => ih child member (each child member)).bind _ fun findings => ?_
    refine .assume (fun _ start => start.2) fun texts => ?_
    refine Completes.bind _ (.lift (verdict?_yields _ _ _ texts) fun _ _ _ start => start.1) fun verdict? => .pure ?_
    intro later fine
    refine ⟨fine, fun failure found => ?_⟩
    obtain ⟨message?, _, rfl⟩ := Option.map_eq_some_iff.mp found
    exact nestedReason_text own message

include keeps in
theorem evaluate_completes {operator : GroupOperator} {fields : Fields} {children : List RuleNode}
    (members : ∀ child ∈ children, child.Accepted) (can : (RuleNode.group operator fields children).CanScore subject) :
    Completes (Progress.Fine inv name known) (evaluate backend subject operator fields children) fun _ =>
      Progress.Fine inv name known := by
  have each := RuleNode.Consists.of_group members can
  refine (collect_completes _ fun child member =>
    examine_completes keeps (members child member) (each child member)).bind _ fun findings => ?_
  refine .assume (fun _ start => start.2) fun texts => ?_
  exact .lift (verdict?_yields _ _ _ texts) fun _ _ _ start => start.1

/-- Steps that come to an end, and of which the report knows the field if they say that they failed. -/
def Marks (inv : σ → Prop) (name : String) (steps : Pass σ Bool) : Prop :=
  ∀ known, Completes (Progress.Fine inv name known) steps fun failed => Progress.Fine inv name (known || failed)

theorem Marks.pure : Marks (σ := σ) inv name (pure false) :=
  fun known => .pure fun _ fine => (Bool.or_false known).symm ▸ fine

theorem passed_marks : Marks (σ := σ) inv name passed :=
  fun known => (count_completes _).bind _ fun _ => Marks.pure known

theorem failWith_marks {error : FieldError} (named : error.field = .text name) (own : error.IsRaised) :
    Marks (σ := σ) inv name (failWith error) := by
  intro known
  refine (count_completes _).bind _ fun _ => ?_
  refine Completes.bind (fun _ => Progress.Fine inv name true) ?_ fun _ => .pure fun _ fine => (Bool.or_true known).symm ▸ fine
  intro progress fine
  obtain ⟨later, added, raised, known⟩ := Report.addError_known fine.raised named own
  refine ⟨(), { progress with report := later }, ?_, fine.backend, raised, fun _ => known⟩
  simp only [addError, ExceptT.run, StateT.run, added]

variable (named : subject.path = .text name)

include keeps named

theorem checkRule_marks {rule : Fields} (sound : Form.SoundRule rule) (can : subject.CanScore rule) :
    Marks inv name (checkRule backend subject rule) := by
  intro known
  refine (count_completes _).bind _ fun _ => ?_
  cases stance : subject.stance rule with
  | skipped => exact (count_completes _).bind _ fun _ => Marks.pure known
  | scored =>
    exact (count_completes _).bind _ fun _ => (score_completes can stance).bind _ fun _ => Marks.pure known
  | judged =>
    refine (judge_completes keeps sound.message).bind _ fun outcome => ?_
    refine Completes.restrict ?_ fun _ start => start.1
    split
    · exact passed_marks known
    · exact failWith_marks named (.inr sound.kind) known

theorem checkNode_marks {node : RuleNode} (accepted : node.Accepted) (can : node.CanScore subject) :
    Marks inv name (checkNode backend subject node) := by
  cases accepted with
  | rule sound => exact checkRule_marks keeps named sound (can _ rfl _ List.mem_cons_self)
  | other => exact .pure
  | group own message members =>
    intro known
    refine (count_completes _).bind _ fun _ => (evaluate_completes keeps members can).bind _ fun message? => ?_
    cases message? with
    | none => exact passed_marks known
    | some message => exact failWith_marks named (.inl rfl) known

theorem checkNodes_marks {nodes : List RuleNode} (accepted : ∀ node ∈ nodes, node.Accepted)
    (can : ∀ node ∈ nodes, node.CanScore subject) : Marks inv name (checkNodes backend subject nodes) := by
  induction nodes with
  | nil => exact .pure
  | cons node nodes ih =>
    obtain ⟨here, later⟩ := List.forall_mem_cons.mp accepted
    obtain ⟨first, rest⟩ := List.forall_mem_cons.mp can
    intro known
    refine (checkNode_marks keeps named here first known).bind _ fun failed => ?_
    refine (ih later rest (known || failed)).bind _ fun others => .pure fun _ fine => ?_
    rwa [Bool.or_assoc] at fine

/-- A field whose rules and groups have been checked is in the report. -/
theorem checkAll_completes {nodes : List RuleNode} (accepted : ∀ node ∈ nodes, node.Accepted)
    (can : ∀ node ∈ nodes, node.CanScore subject) :
    Completes (Progress.Fine inv name false) (checkAll backend subject nodes) fun _ => Progress.Fine inv name true := by
  refine (checkNodes_marks keeps named accepted can false).bind _ fun failed => ?_
  cases failed with
  | true => exact .pure fun _ fine => fine
  | false =>
    refine Completes.bind _ .get fun before => .assume (fun _ start => start.2 ▸ start.1) fun fine => ?_
    have marked := Report.setValid_known fine.raised name
    rw [← named] at marked
    refine Completes.bind _ (.lift marked fun _ _ known _ => known) fun report => .set fun _ known => ?_
    exact ⟨fine.backend, known.1, fun _ => known.2⟩

end Rules

end Pass

end FormRules

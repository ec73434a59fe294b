import FormRules.Proofs.AcceptedForms
import FormRules.Proofs.OutcomeMessages
import FormRules.Proofs.PassConsistency
import FormRules.Proofs.RuleCompletion
import FormRules.Proofs.ScoringRange
import Mathlib.Algebra.Group.Int.Defs

/-! A pass over a form whose structure has been checked comes to its end, and every field with rules is in its
report. What can still break it off is named in the assumptions: a field whose place in the data cannot be looked up,
an answer that cannot be scored, and another party that says something else than a text. -/

namespace FormRules

namespace Item

/-- A field that an item holds, with its path below that of a parent. -/
inductive Holds : Value → Item → Value → Fields → Prop where
  | leaf {parent path : Value} {fields : Fields} (sort : ItemSort.ofFields fields = .ok .data)
      (named : (nameOf fields).truthy = true) (place : pathOf fields parent = .ok path) :
      Holds parent (.leaf fields) path fields
  | container {parent inner path : Value} {outer fields : Fields} {children : List Item} {child : Item}
      (place : pathOf outer parent = .ok inner) (member : child ∈ children) (inside : Holds inner child path fields) :
      Holds parent (.container outer children) path fields

section Holds

variable {parent inner path : Value} {outer fields : Fields} {children : List Item}

theorem Holds.of_leaf (holds : Holds parent (.leaf outer) path fields) :
    fields = outer ∧ ItemSort.ofFields outer = .ok .data ∧ (nameOf outer).truthy = true ∧
      pathOf outer parent = .ok path := by
  cases holds with
  | leaf sort named place => exact ⟨rfl, sort, named, place⟩

theorem Holds.of_container (place : pathOf outer parent = .ok inner)
    (holds : Holds parent (.container outer children) path fields) : ∃ child ∈ children, child.Holds inner path fields := by
  cases holds with
  | container there member inside =>
    rw [place] at there
    cases there
    exact ⟨_, member, inside⟩

end Holds

/-- The paths of fields are texts. -/
theorem text_of_holds {item : Item} (accepted : item.Accepted) {parent : String} {path : Value} {fields : Fields}
    (holds : item.Holds (.text parent) path fields) : ∃ name, path = .text name := by
  induction accepted generalizing parent with
  | leaf sound =>
    obtain ⟨_, place, name, rfl⟩ := pathOf_yields sound parent
    obtain ⟨_, _, _, there⟩ := holds.of_leaf
    exact ⟨name, Except.ok.inj (there.symm.trans place)⟩
  | container sound _ ih =>
    obtain ⟨_, place, name, rfl⟩ := pathOf_yields sound parent
    obtain ⟨child, member, inside⟩ := holds.of_container place
    exact ih child member inside

end Item

namespace Form

/-- A field of a form, with its path. -/
def HasField (form path : Value) (fields : Fields) : Prop :=
  ∃ items, Dependency.itemsOf form = .ok items ∧ ∃ item ∈ items, Item.Holds (.text "") item path fields

/-- A field that has rules to be checked. -/
def HasRules (fields : Fields) : Prop := ∃ rules, Dependency.rulesOf fields = .ok rules ∧ rules ≠ []

/-- A rule of a field, be it in a group, by which the value of the field is scored. -/
def Scores (fields rule : Fields) : Prop :=
  RuleKind.ofValue? (Fields.get rule "type") = some .computed ∧
    ∃ rules leaves, Dependency.rulesOf fields = .ok rules ∧
      RuleNode.leavesOfAll (RuleNode.ofList rules) = .ok leaves ∧ rule ∈ leaves

end Form

/-- A field whose rules can be checked: if it has any, its value can be looked up, and be scored by those that score. -/
structure Pass.Passable (context : Context) (path : Value) (fields : Fields) : Prop where
  reachable : Form.HasRules fields → ∃ value, fieldValue context path fields = .ok value
  typed : ∀ rule, Form.Scores fields rule → Scoring.WellTyped rule
  scorable : ∀ rule value, Form.Scores fields rule → fieldValue context path fields = .ok value →
    Scoring.Scorable value rule

namespace Subject

theorem kind_of_scored {subject : Subject} {rule : Fields} (scored : subject.stance rule = .scored) :
    RuleKind.ofValue? (Fields.get rule "type") = some .computed := by
  unfold stance at scored
  simp only at scored
  split at scored
  · cases scored
  · split at scored
    next kind => exact beq_iff_eq.mp kind
    · split at scored <;> cases scored

/-- A value with texts as names that a rule can score is scored under a text. -/
theorem canScore_of_scorable {subject : Subject} {rule : Fields} {name : String} (path : subject.path = .text name)
    (named : subject.value.isTextNamed = true) (scorable : RuleKind.ofValue? (Fields.get rule "type") = some .computed →
      Scoring.WellTyped rule ∧ Scoring.Scorable subject.value rule) : subject.CanScore rule := by
  intro scored scores
  obtain ⟨typed, subtype, told, feasible⟩ := scorable (kind_of_scored scored)
  have field : subject.path.asKey = .ok (.text name) := by rw [path]; rfl
  have scored? : Yields (Pass.scoreOf? subject.path subject.value rule) fun _ => True := by
    unfold Pass.scoreOf?
    rw [told]
    exact (Scoring.score?_yields typed feasible named).bind fun _ _ => .ok trivial
  refine scored?.bind fun score? _ => ?_
  cases score? with
  | none => exact .ok trivial
  | some score =>
    simp only [field]
    split
    · exact .ok trivial
    · exact .ok trivial

end Subject

namespace Form

variable {fields : Fields} (sound : SoundItem fields)

include sound

theorem defaultFor_yields : Yields (defaultFor (Fields.get fields "type")) (·.isTextNamed = true) := by
  have named (name : String) : (defaultOf name).isTextNamed = true := by
    unfold defaultOf
    repeat' split
    all_goals rfl
  obtain ⟨name, shape⟩ := sound.type.orElse_text ""
  unfold defaultFor
  rw [shape]
  exact .ok (named name)

end Form

namespace Pass

variable {context : Context} {fields : Fields}

theorem isTextNamed_fieldValue (sound : Form.SoundItem fields) (named : context.data.isTextNamed = true) {path value : Value}
    (known : fieldValue context path fields = .ok value) : value.isTextNamed = true := by
  obtain ⟨value?, found, known⟩ := Fault.of_bind_ok known
  obtain ⟨name, _, found⟩ := Fault.of_bind_ok found
  cases value? with
  | some held =>
    cases known
    exact Path.walk?_ensures Value.inherited_isTextNamed named _ _ found _ rfl
  | none =>
    obtain ⟨other, default, plain⟩ := Form.defaultFor_yields sound
    rw [default] at known
    cases known
    exact plain

section Fields

variable {σ : Type} {inv : σ → Prop} {backend : Backend σ} (keeps : backend.Keeps inv) {name : String}
  (sound : Form.SoundItem fields) (named : context.data.isTextNamed = true)
  (passable : Passable context (.text name) fields)

include sound named passable

/-- What a field with rules is checked as can be scored by each of its rules. -/
theorem subjectOf_yields {rules : List Value} {leaves : List Fields} (given : Dependency.rulesOf fields = .ok rules)
    (some : rules ≠ []) (taken : RuleNode.leavesOfAll (RuleNode.ofList rules) = .ok leaves) (isRequired : Bool) :
    Yields (subjectOf context (.text name) fields isRequired) fun subject =>
      subject.path = .text name ∧ ∀ rule ∈ leaves, subject.CanScore rule := by
  obtain ⟨value, known⟩ := passable.reachable ⟨rules, given, some⟩
  unfold subjectOf
  rw [known]
  refine .ok ⟨rfl, fun rule member => Subject.canScore_of_scorable rfl (isTextNamed_fieldValue sound named known) ?_⟩
  intro kind
  have scores : Form.Scores fields rule := ⟨kind, rules, leaves, given, taken, member⟩
  exact ⟨passable.typed rule scores, passable.scorable rule value scores known⟩

omit sound named passable in
theorem skipField_completes (reason : String) (rules : Nat) :
    Completes (Progress.Fine inv name false) (skipField (.text name) reason rules) fun _ => Progress.Fine inv name true := by
  refine Completes.bind _ .get fun before => .assume (fun _ start => start.2 ▸ start.1) fun fine => ?_
  have marked := Report.setSkipped_known fine.raised name (.text reason)
  refine Completes.bind (fun report later => (report.Raised ∧ report.Knows name) ∧ inv later.backend)
    (.lift marked fun _ _ known start => ⟨known, start.1.backend⟩) fun report => ?_
  exact Completes.bind _ (.modify fun _ known => ⟨known.2, known.1.1, fun _ => known.1.2⟩) fun _ => count_completes _

include keeps in
theorem checkField_completes : Completes (Progress.Fine inv name false) (checkField backend context fields (.text name))
    fun _ later => later.Fine inv name false ∧ (Form.HasRules fields → later.report.Knows name) := by
  obtain ⟨rules, given, accepted⟩ := sound.rules
  obtain ⟨leaves, taken, _⟩ := RuleNode.leavesOfAll_yields accepted
  unfold checkField
  rw [Form.ofRules_of_rulesOf given, lift_ok_bind]
  refine Completes.bind _ (.lift (RuleNode.hasKind_yields accepted .required) fun _ _ _ fine => fine) fun asked => ?_
  simp only
  split
  next reason _ =>
    rw [taken, lift_ok_bind]
    exact (skipField_completes reason leaves.length).weaken (fun _ fine => fine) fun _ later fine =>
      ⟨⟨fine.backend, fine.raised, nofun⟩, fun _ => fine.known rfl⟩
  next =>
    split
    next empty =>
      refine .pure fun _ fine => ⟨fine, fun held => ?_⟩
      obtain ⟨others, same, some⟩ := held
      rw [given] at same
      cases same
      cases rules with
      | nil => exact absurd rfl some
      | cons => cases empty
    next filled =>
      have some : rules ≠ [] := by
        rintro rfl
        exact filled rfl
      refine Completes.bind (fun subject later => later.Fine inv name false ∧
          subject.path = .text name ∧ ∀ rule ∈ leaves, subject.CanScore rule)
        (.lift (subjectOf_yields sound named passable given some taken _) fun _ _ known fine => ⟨fine, known⟩)
        fun subject => .assume (fun _ start => start.2) fun ⟨path, can⟩ => ?_
      exact (checkAll_completes keeps path accepted (RuleNode.consists_of_leavesOfAll taken can)).weaken
        (fun _ start => start.1) fun _ later fine => ⟨⟨fine.backend, fine.raised, nofun⟩, fun _ => fine.known rfl⟩

end Fields

/-- A report that lists no errors but those of rules and groups, and knows all fields with rules of an item. -/
structure Covers (report : Report) (parent : Value) (item : Item) : Prop where
  raised : report.Raised
  knows : ∀ name fields, item.Holds parent (.text name) fields → Form.HasRules fields → report.Knows name

theorem Covers.of_eq {report later : Report} {parent : Value} {item : Item} (covers : Covers report parent item)
    (errors : later.errors = report.errors) (fields : later.fields = report.fields) : Covers later parent item where
  raised := by
    unfold Report.Raised
    exact errors ▸ covers.raised
  knows name held holds rules := by
    unfold Report.Knows
    exact fields ▸ covers.knows name held holds rules

section Items

variable {σ : Type} {inv : σ → Prop} {backend : Backend σ}

/-- Steps that come to an end from an empty report of their own do so whatever the report before. -/
theorem ownReport_completes {steps : Pass σ Unit} {good : Report → Prop}
    (completes : Completes (fun progress => inv progress.backend ∧ progress.report = Report.counting) steps
      fun _ later => inv later.backend ∧ good later.report) :
    Completes (inv ·.backend) (ownReport steps) fun report later => inv later.backend ∧ good report := by
  refine Completes.bind _ .get fun before => ?_
  refine Completes.bind _ (.modify fun _ start => ⟨start.1, rfl⟩) fun _ => completes.bind _ fun _ => ?_
  refine Completes.bind _ .get fun last => .assume (fun _ start => start.2 ▸ start.1.2) fun holds => ?_
  exact Completes.bind _ (.modify fun _ start => start.1.1) fun _ => .pure fun _ kept => ⟨kept, holds⟩

variable (keeps : backend.Keeps inv) (named : context.data.isTextNamed = true)

include keeps named

theorem checkLeaf_completes (sound : Form.SoundItem fields) (parent : String)
    (passable : ∀ path held, Item.Holds (.text parent) (.leaf fields) path held → Passable context path held) :
    Completes (fun progress => inv progress.backend ∧ progress.report = Report.counting)
      (checkLeaf backend context fields (.text parent))
      fun _ later => inv later.backend ∧ Covers later.report (.text parent) (.leaf fields) := by
  obtain ⟨sort, told, _⟩ := Item.sort_yields sound
  obtain ⟨_, place, name, rfl⟩ := Item.pathOf_yields sound parent
  unfold checkLeaf
  rw [told, lift_ok_bind]
  split
  next checked =>
    obtain ⟨data, given⟩ := Bool.and_eq_true_iff.mp checked
    obtain rfl := beq_iff_eq.mp data
    rw [place, lift_ok_bind]
    refine (checkField_completes keeps sound named (passable _ _ (.leaf told given place))).weaken ?_ ?_
    · rintro progress ⟨kept, empty⟩
      exact ⟨kept, empty ▸ Report.raised_counting, nofun⟩
    · rintro _ later ⟨fine, known⟩
      refine ⟨fine.backend, fine.raised, fun other held holds rules => ?_⟩
      obtain ⟨rfl, _, _, there⟩ := holds.of_leaf
      rw [place] at there
      cases there
      exact known rules
  next idle =>
    refine .pure fun progress ⟨kept, empty⟩ => ⟨kept, empty ▸ Report.raised_counting, fun other held holds rules => ?_⟩
    obtain ⟨_, data, given, _⟩ := holds.of_leaf
    rw [told] at data
    cases data
    exact absurd given (by simpa using idle)

omit keeps named in
theorem checkItems_of_each {items : List Item} {parent : Value}
    (each : ∀ item ∈ items, Completes (inv ·.backend) (checkItem backend context parent item)
      fun report later => inv later.backend ∧ Covers report parent item) {report : Report} (raised : report.Raised) :
    Completes (inv ·.backend) (checkItems backend context parent report items) fun all later =>
      inv later.backend ∧ (∀ name, report.Knows name → all.Knows name) ∧ all.Raised ∧
        ∀ item ∈ items, Covers all parent item := by
  induction items generalizing report with
  | nil => exact .pure fun _ kept => ⟨kept, fun _ known => known, raised, List.forall_mem_nil _⟩
  | cons item items ih =>
    obtain ⟨here, rest⟩ := List.forall_mem_cons.mp each
    unfold checkItems
    refine here.bind _ fun own => .assume (fun _ start => start.2) fun covers => ?_
    refine (ih rest (raised.merge covers.raised)).weaken (fun _ start => start.1) ?_
    -- What is known from this item is not forgotten when the reports of the later ones are folded in.
    rintro all later ⟨kept, grows, raised, others⟩
    refine ⟨kept, fun name known => grows name (known.merge_left own), raised, List.forall_mem_cons.mpr ⟨?_, others⟩⟩
    exact ⟨raised, fun name fields holds rules => grows name ((covers.knows name fields holds rules).merge_right report)⟩

/-- Checking an item comes to an end, and its report has all fields with rules that the item holds. -/
theorem checkItem_completes {item : Item} (accepted : item.Accepted) (parent : String)
    (passable : ∀ path held, item.Holds (.text parent) path held → Passable context path held) :
    Completes (inv ·.backend) (checkItem backend context (.text parent) item)
      fun report later => inv later.backend ∧ Covers report (.text parent) item := by
  induction accepted generalizing parent with
  | leaf sound => exact ownReport_completes (checkLeaf_completes keeps named sound parent passable)
  | container sound members ih =>
    obtain ⟨_, place, name, rfl⟩ := Item.pathOf_yields sound parent
    unfold checkItem
    rw [place, lift_ok_bind]
    refine (checkItems_of_each (fun child member => ih child member name fun path held holds =>
      passable path held (.container place member holds)) Report.raised_counting).weaken (fun _ kept => kept) ?_
    rintro all later ⟨kept, _, raised, covers⟩
    refine ⟨kept, raised, fun other fields holds rules => ?_⟩
    obtain ⟨child, member, inside⟩ := holds.of_container place
    exact (covers child member).knows other fields inside rules

end Items

end Pass

/-- A rule that cannot be applied is passed over. -/
theorem FormScores.applyAll_object (context : Context) (all : FormScores) (fields : Fields) (rules : List Value) :
    applyAll context all (.object fields :: rules) =
      applyAll context ((apply context fields all).toOption.getD all) rules := by
  rw [applyAll]
  dsimp only [Value.asObject, bind, Except.bind]
  cases apply context fields all <;> rfl

theorem FormScores.applyAll_yields {context : Context} {rules : List Value}
    (objects : ∀ rule ∈ rules, ∃ fields, rule = .object fields) (all : FormScores) :
    Yields (applyAll context all rules) fun _ => True := by
  induction rules generalizing all with
  | nil => exact .ok trivial
  | cons rule rules ih =>
    obtain ⟨⟨fields, rfl⟩, rest⟩ := List.forall_mem_cons.mp objects
    rw [applyAll_object]
    exact ih rest _

namespace Pass

variable {context : Context} {σ : Type} {inv : σ → Prop} {backend : Backend σ} (keeps : backend.Keeps inv)

include keeps

/-- A pass over a form of which all is in order comes to an end, and every field with rules is in its report. -/
theorem checkForm_completes {fields : Fields} {items rules : List Value} (form : context.form = .object fields)
    (sound : Form.Sound fields items rules) (named : context.data.isTextNamed = true)
    (passable : ∀ path held, Form.HasField context.form path held → Passable context path held) :
    Completes (inv ·.backend) (checkForm backend context) fun report _ =>
      report.Raised ∧ ∀ item ∈ Item.ofList items, Covers report (.text "") item := by
  have known := sound.itemsOf
  rw [← form] at known
  have objects : ∀ rule ∈ rules, ∃ fields, rule = .object fields := fun rule member =>
    (sound.scoring rule member).imp fun _ scoring => scoring.1
  unfold checkForm
  rw [form, show (Value.object fields).asObject = .ok fields from rfl, lift_ok_bind, sound.listed, lift_ok_bind]
  refine Completes.bind _ (checkItems_of_each (fun item member => checkItem_completes keeps named
    (sound.accepted item member) "" fun path held holds => passable path held ⟨_, known, item, member, holds⟩)
    Report.raised_counting) fun report => .assume (fun _ start => start.2.2) fun ⟨raised, covers⟩ => ?_
  -- The rules that score the form as a whole are left out if they are at fault, and add no errors.
  rw [sound.given, lift_ok_bind]
  refine Completes.bind (fun _ _ => True) (.weaken .get (fun _ _ => trivial) fun _ _ _ => trivial) fun progress => ?_
  refine Completes.bind (fun _ _ => True)
    (.lift (FormScores.applyAll_yields objects _) fun _ _ _ _ => trivial) fun all => .pure fun _ _ => ?_
  have errors : (all.addTo report).errors = report.errors := by rw [FormScores.addTo_eq]
  have outcomes : (all.addTo report).fields = report.fields := by rw [FormScores.addTo_eq]
  refine ⟨?_, fun item member => (covers item member).of_eq errors outcomes⟩
  unfold Report.Raised
  exact errors ▸ raised

end Pass

/-- A form that is an object is the form of the whole pass. -/
theorem Submission.form_context {submission : Submission} {fields : Fields} (form : submission.form = .object fields)
    (settings : Settings) : (submission.context settings).form = .object fields := by
  show submission.form.orElse (.object []) = .object fields
  rw [form]
  cases fields <;> rfl

namespace Validator

theorem not_systemError_of_isRaised {error : FieldError} (raised : error.IsRaised) : error.rule ≠ .text "system_error" := by
  intro system
  unfold FieldError.IsRaised at raised
  rw [system] at raised
  obtain group | ⟨kind, known⟩ := raised
  · exact absurd group (by simp [Value.text])
  · cases known

theorem keeps_check {means : Rule.Means} (worded : means.transport.Worded) :
    (Rule.check means).Keeps (·.traffic.Worded) := by
  intro value rule context session message kept
  obtain ⟨told, later⟩ := Rule.check_worded worded message value context kept
  exact ⟨Rule.outcomeOf_isMessage message told, later⟩

/-- A pass is not broken off if the structure of the form is in order, the rules that score are well typed, the
values of the fields can be looked up and scored, and the other party says texts: whatever the callbacks do and
whatever else the other party answers, all errors are those of rules and groups, and each field with rules has an
outcome. -/
theorem validate_completes {means : Rule.Means} {settings : Settings} {submission : Submission} {state : Rule.Session}
    (accepted : Form.complaints submission.form = []) (named : submission.data.isTextNamed = true)
    (typed : ∀ path fields rule, Form.HasField submission.form path fields → Form.Scores fields rule →
      Scoring.WellTyped rule)
    (reachable : ∀ path fields, Form.HasField submission.form path fields → Form.HasRules fields →
      ∃ value, Pass.fieldValue (submission.context settings) path fields = .ok value)
    (scorable : ∀ path fields rule value, Form.HasField submission.form path fields → Form.Scores fields rule →
      Pass.fieldValue (submission.context settings) path fields = .ok value → Scoring.Scorable value rule)
    (worded : means.transport.Worded) (fresh : state.traffic.kept = []) :
    let report := (validate (Rule.check means) settings submission state).1
    (∀ error ∈ report.errors, error.IsRaised ∧ error.rule ≠ .text "system_error") ∧
      ∀ path fields, Form.HasField submission.form path fields → Form.HasRules fields →
        ∃ outcome, report.outcome? path = .ok (some outcome) := by
  obtain ⟨fields, items, rules, form, sound⟩ := Form.sound_of_complaints accepted
  have context := Submission.form_context form settings
  have same : (submission.context settings).form = submission.form := context.trans form.symm
  have passable (path : Value) (held : Fields) (has : Form.HasField (submission.context settings).form path held) :
      Pass.Passable (submission.context settings) path held := by
    rw [same] at has
    exact ⟨reachable path held has, fun rule => typed path held rule has, fun rule value => scorable path held rule value has⟩
  have kept : state.traffic.Worded := by
    unfold Rule.Traffic.Worded
    rw [fresh]
    exact List.forall_mem_nil _
  obtain ⟨graph, drawn, _⟩ := sound.graph
  rw [← form] at drawn
  obtain ⟨checked, later, run, raised, covers⟩ := Pass.checkForm_completes (keeps_check worded) context sound named passable
    { backend := state } kept
  have report : (validate (Rule.check means) settings submission state).1 =
      completed settings submission.now graph checked := by
    unfold validate
    simp only [drawn, run]
  rw [report]
  refine ⟨fun error member => ?_, fun path held has some => ?_⟩
  · have own := raised error member
    exact ⟨own, not_systemError_of_isRaised own⟩
  · obtain ⟨among, listed, item, member, holds⟩ := has
    rw [form, sound.itemsOf] at listed
    cases listed
    obtain ⟨name, rfl⟩ := Item.text_of_holds (sound.accepted item member) holds
    have known : (({} : Report).merge checked).Knows name :=
      ((covers item member).knows name held holds some).merge_right _
    obtain ⟨outcome, found⟩ := Option.isSome_iff_exists.mp known
    exact ⟨outcome, congrArg Except.ok found⟩

namespace Quiz

/-- A rule that scores the one right answer. -/
def scoring : Fields :=
  [(.text "type", .text "computed"), (.text "subtype", .text "exactMatch"), (.text "correctAnswer", .int 1)]

/-- A field that is scored. -/
def score : Fields := [(.text "name", .text "score"), (.text "validationRules", .list [.object scoring])]

/-- A field that has to be filled in. -/
def city : Fields :=
  [(.text "name", .text "city"), (.text "validationRules", .list [.ofFields [("type", .text "required")]])]

/-- An answer, and no city. -/
def answered (answer : Int) : Submission where
  form := .ofFields [("items", .list [.object score, .object city])]
  data := .ofFields [("score", .int answer), ("city", .text "")]
  now := .earliest

variable {answer : Int} {path : Value} {fields rule : Fields}

theorem field_of_hasField (has : Form.HasField (answered answer).form path fields) :
    (path = .text "score" ∧ fields = score) ∨ (path = .text "city" ∧ fields = city) := by
  obtain ⟨items, listed, item, member, holds⟩ := has
  cases listed
  obtain rfl | rfl : item = .leaf score ∨ item = .leaf city :=
    (List.mem_cons.mp member).imp_right List.mem_singleton.mp
  · obtain ⟨rfl, _, _, place⟩ := holds.of_leaf
    cases place
    exact .inl ⟨rfl, rfl⟩
  · obtain ⟨rfl, _, _, place⟩ := holds.of_leaf
    cases place
    exact .inr ⟨rfl, rfl⟩

theorem rule_of_scores (has : Form.HasField (answered answer).form path fields) (scores : Form.Scores fields rule) :
    path = .text "score" ∧ fields = score ∧ rule = scoring := by
  obtain ⟨kind, rules, leaves, given, taken, member⟩ := scores
  obtain ⟨rfl, rfl⟩ | ⟨rfl, rfl⟩ := field_of_hasField has
  · cases given
    cases taken
    exact ⟨rfl, rfl, List.mem_singleton.mp member⟩
  · cases given
    cases taken
    obtain rfl := List.mem_singleton.mp member
    cases kind

theorem one_isWithin : (Value.int 1).IsWithin 0 := Value.isWithin_count (Nat.le_refl 1)

theorem scoring_wellTyped : Scoring.WellTyped scoring where
  points := ⟨0, one_isWithin⟩
  penalty := ⟨0, Value.isWithin_zero 0⟩
  tolerance := ⟨0, Value.isWithin_zero 0⟩
  least := ⟨0, Value.isWithin_zero 0⟩
  keywords := fun _ found => nomatch found

theorem scoring_scorable : Scoring.Scorable (.int 1) scoring :=
  ⟨.exact, rfl, fun _ _ => one_isWithin.isReadable (by decide)⟩

end Quiz

open Quiz in
theorem validate_completes_quiz :
    let report := (validate (Rule.check (means {} [] .offline)) {} (answered 1) {}).1
    (∀ error ∈ report.errors, error.IsRaised ∧ error.rule ≠ .text "system_error") ∧
      ∀ path fields, Form.HasField (answered 1).form path fields → Form.HasRules fields →
        ∃ outcome, report.outcome? path = .ok (some outcome) := by
  refine validate_completes rfl rfl (fun path fields rule has scores => ?_) (fun path fields has _ => ?_)
    (fun path fields rule value has scores known => ?_) ?_ rfl
  · rw [(rule_of_scores has scores).2.2]
    exact scoring_wellTyped
  · obtain ⟨rfl, rfl⟩ | ⟨rfl, rfl⟩ := field_of_hasField has <;> exact ⟨_, rfl⟩
  · obtain ⟨rfl, rfl, rfl⟩ := rule_of_scores has scores
    have looked : Pass.fieldValue ((answered 1).context {}) (.text "score") score = .ok (.int 1) := rfl
    obtain rfl := Except.ok.inj (looked.symm.trans known)
    exact scoring_scorable
  · rintro _ _ _ _ _ ⟨⟩

open Quiz in
/-- An answer without a floating point form breaks the pass off, although all else is in order. -/
theorem validate_overflow :
    Form.complaints (answered (10 ^ 400)).form = [] ∧ (answered (10 ^ 400)).data.isTextNamed = true ∧
      (∀ path fields rule, Form.HasField (answered (10 ^ 400)).form path fields → Form.Scores fields rule →
        Scoring.WellTyped rule) ∧
      (validate (Rule.check (means {} [] .offline)) {} (answered (10 ^ 400)) {}).1.errors.any
        (·.rule.same (.text "system_error")) = true := by
  refine ⟨rfl, rfl, fun path fields rule has scores => ?_, by decide +kernel⟩
  rw [(rule_of_scores has scores).2.2]
  exact scoring_wellTyped

end Validator

end FormRules

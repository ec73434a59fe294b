import FormRules.Proofs.OverlookedChanges
import FormRules.Proofs.PairedRuns
import FormRules.Proofs.QuestionExchange

/-! A pass that keeps the outcomes of questions against one that does not. The reports are the same if rules that ask
the same question can be exchanged for each other; otherwise a field shows the message of the rule that asked first. -/

namespace FormRules

/-! What is told apart from the keeping of outcomes: contexts that differ in nothing else. -/

/-- The same context in a pass that keeps outcomes otherwise. -/
def Context.keeping (context : Context) (cache : CacheSettings) (caching : Bool) : Context :=
  { context with settings := { context.settings with cache }, caching }

/-- Whether a callback does not look at whether outcomes are kept. -/
def Callback.IgnoresCaching (callback : Callback) : Prop :=
  ∀ argument context cache caching, callback argument (context.keeping cache caching) = callback argument context

/-- Whether no callback of a registry looks at whether outcomes are kept. -/
def Registry.IgnoresCaching (registry : Registry) : Prop :=
  ∀ entry ∈ registry.entries, ∀ callback, entry.2.callback? = some callback → callback.IgnoresCaching

namespace Callback

theorem ignoresCaching_uncallable (value : Value) : (uncallable value).IgnoresCaching := fun _ _ _ _ => rfl

theorem ignoresCaching_predefined : ∀ item ∈ predefined, item.callback.IgnoresCaching := by
  unfold predefined
  repeat refine List.forall_mem_cons.mpr ⟨fun _ _ _ _ => rfl, ?_⟩
  exact List.forall_mem_nil _

theorem ignoresCaching_lookup {table : Table} (ignore : ∀ entry ∈ table, entry.2.IgnoresCaching) (name : String)
    (value : Value) : ((table.lookup name).getD (uncallable value)).IgnoresCaching := by
  cases found : table.lookup name with
  | none => exact ignoresCaching_uncallable value
  | some callback => exact ignore _ (Rule.mem_of_lookup found)

end Callback

namespace Registry

theorem IgnoresCaching.insert {entries : Keyed Callback.Entry} (ignores : IgnoresCaching ⟨entries⟩) (key : Scalar)
    {entry : Callback.Entry} (own : ∀ callback, entry.callback? = some callback → callback.IgnoresCaching) :
    IgnoresCaching ⟨Keyed.insert entries key entry⟩ := by
  intro other member callback held
  obtain before | same := Keyed.mem_insert member
  · exact ignores other before callback held
  · exact own callback (same ▸ held)

theorem IgnoresCaching.register {registry : Registry} (ignores : registry.IgnoresCaching) (name : Scalar)
    {entry : Callback.Entry} (own : ∀ callback, entry.callback? = some callback → callback.IgnoresCaching)
    (overwrite : Bool) : (registry.register name entry overwrite).1.IgnoresCaching := by
  unfold Registry.register
  split
  · exact ignores
  · exact ignores.insert name own

theorem ignoresCaching_standard : standard.IgnoresCaching := by
  have fold (items : List Callback.Predefined) : ∀ entries, IgnoresCaching ⟨entries⟩ →
      (∀ item ∈ items, item.callback.IgnoresCaching) →
      IgnoresCaching ⟨items.foldl (fun entries item => Keyed.insert entries (.text item.name) item.entry) entries⟩ := by
    induction items with
    | nil => exact fun _ ignores _ => ignores
    | cons item items ih =>
      intro entries ignores all
      obtain ⟨here, later⟩ := List.forall_mem_cons.mp all
      refine ih _ (ignores.insert _ fun callback held => ?_) later
      cases held
      exact here
  exact fold _ [] (List.forall_mem_nil _) Callback.ignoresCaching_predefined

theorem IgnoresCaching.withValidators {registry : Registry} (ignores : registry.IgnoresCaching) {table : Callback.Table}
    (own : ∀ entry ∈ table, entry.2.IgnoresCaching) (validators : Fields) :
    (registry.withValidators table validators).IgnoresCaching := by
  unfold Registry.withValidators
  induction validators generalizing registry with
  | nil => exact ignores
  | cons validator validators ih =>
    obtain ⟨name, value⟩ := validator
    refine ih (ignores.register name (fun callback held => ?_) true)
    cases value with
    | handle handle =>
      cases held
      exact Callback.ignoresCaching_lookup own handle _
    | scalar scalar =>
      cases scalar <;> cases held <;> exact Callback.ignoresCaching_uncallable _
    | list _ | object _ =>
      cases held
      exact Callback.ignoresCaching_uncallable _

end Registry

namespace Rule

/-- Whether no callback that a rule can refer to looks at whether outcomes are kept. -/
def Callbacks.IgnoreCaching (callbacks : Callbacks) : Prop :=
  ∀ reference callback, callbacks.resolve reference = .ok (some callback) → callback.IgnoresCaching

theorem ignoreCaching_of_registry {callbacks : Callbacks} (registry : callbacks.registry.IgnoresCaching)
    (table : ∀ entry ∈ callbacks.table, entry.2.IgnoresCaching) : callbacks.IgnoreCaching := by
  intro reference callback found
  unfold Callbacks.resolve at found
  split at found
  next name =>
    cases found
    exact Callback.ignoresCaching_lookup table name _
  next =>
    obtain ⟨key, _, found⟩ := Fault.of_bind_ok found
    split at found
    next known =>
      cases found
      obtain ⟨entry, stored, held⟩ := Option.bind_eq_some_iff.mp known
      obtain ⟨other, member, _⟩ := Keyed.exists_mem_of_find? stored
      exact registry _ member callback held
    next =>
      obtain ⟨_, _, found⟩ := Fault.of_bind_ok found
      cases found

section Checks

variable (value : Value) (rule : Fields) (context : Context) (cache : CacheSettings) (caching : Bool)

/-- Callbacks that do not look at whether outcomes are kept overlook that they are kept otherwise. -/
theorem Callbacks.IgnoreCaching.overlook_keeping {callbacks : Callbacks} (ignore : callbacks.IgnoreCaching) :
    callbacks.Overlook (·.keeping cache caching) where
  params := fun _ _ => rfl
  same := fun reference callback found argument context => ignore reference callback found argument context cache caching

/-- Rules that ask nobody do not look at whether outcomes are kept. -/
theorem check_keeping {means : Means} (ignore : means.callbacks.IgnoreCaching) (session : Session)
    (otherwise : ¬IsRemote rule) :
    check means value rule (context.keeping cache caching) session = check means value rule context session := by
  have overlook := ignore.overlook_keeping cache caching
  unfold check
  unfold IsRemote at otherwise
  simp only
  split
  case h_3 => rw [checkCustom_overlooking overlook]
  case h_4 => rw [checkCrossField_overlooking overlook value context fun _ _ _ _ => rfl]
  case h_5 => rw [checkPlugin_overlooking overlook]
  case h_7 => contradiction
  all_goals rfl

end Checks

/-! A session that keeps outcomes beside one that does not. -/

/-- Two sessions with the same schemas, the first of which keeps nothing but what asking comes to anyway, as far as
some rules ask questions. -/
structure Mirrors (transport : Transport) (asks : Fields → Question → Prop) (first second : Session) : Prop where
  schemas : first.schemas = second.schemas
  kept : ∀ entry ∈ first.traffic.kept, ∀ rule question, asks rule question → question.key = .ok entry.1 →
    ∀ traffic, (ask transport rule question traffic).1 = .ok entry.2

/-- Rules that ask questions about plain data; those that ask the same one can be exchanged for each other. -/
structure Concordant (asks : Fields → Question → Prop) : Prop where
  document : ∀ rule question, asks rule question → question.IsDocument
  exchangeable : ∀ rule question rule' question', asks rule question → asks rule' question' →
    question.key = question'.key → Exchangeable rule rule' question question'

section Sessions

variable {means : Means} {asks : Fields → Question → Prop} {first second : Session} {value : Value} {rule : Fields}
  {context : Context} {cache : CacheSettings}

/-- What a question comes to if outcomes are kept is what it comes to if they are not. -/
theorem askOnce_mirrors (steady : means.transport.IsSteady) (concordant : Concordant asks)
    (mirrors : Mirrors means.transport asks first second) {question : Question} (asked : asks rule question) :
    (askOnce means.transport rule question first.traffic).1 = (ask means.transport rule question second.traffic).1 ∧
      Mirrors means.transport asks { first with traffic := (askOnce means.transport rule question first.traffic).2 }
        { second with traffic := (ask means.transport rule question second.traffic).2 } := by
  have document := concordant.document rule question asked
  obtain ⟨key, keyed⟩ := document.key
  obtain ⟨fault, unwritten, _⟩ | ⟨key', outcome, keyed', found, ended⟩ | ⟨key', keyed', _, ended⟩ :=
    askOnce_cases means.transport rule question first.traffic
  · rw [keyed] at unwritten
    cases unwritten
  · rw [ended]
    refine ⟨?_, mirrors.schemas, mirrors.kept⟩
    exact (mirrors.kept _ (mem_of_lookup found) rule question asked keyed' second.traffic).symm
  · rw [ended]
    refine ⟨ask_steady steady first.traffic second.traffic, mirrors.schemas, fun entry kept rule' question' asked' same => ?_⟩
    have before (kept : entry ∈ first.traffic.kept) := mirrors.kept entry kept rule' question' asked' same
    cases comes : (ask means.transport rule question first.traffic).1 with
    | error fault =>
      simp only [comes] at kept
      rw [ask_kept] at kept
      exact before kept
    | ok outcome =>
      simp only [comes] at kept
      obtain rfl | kept := List.mem_cons.mp kept
      · have document' := concordant.document rule' question' asked'
        have alike := (Question.same_of_key keyed' same).of_plain document.plain document'.plain
        exact ask_exchange steady alike document document'
          (concordant.exchangeable rule question rule' question' asked asked' (keyed'.trans same.symm)) comes
      · exact before kept

/-- Rules that ask nobody know of a session only its schemas. -/
theorem check_of_not_remote (otherwise : ¬IsRemote rule) (same : first.schemas = second.schemas) :
    (check means value rule context first).1 = (check means value rule context second).1 := by
  unfold check
  unfold IsRemote at otherwise
  simp only [same]
  split
  case h_7 => contradiction
  all_goals rfl

/-- Whatever a rule is, it comes to the same whether outcomes are kept or not. -/
theorem check_mirrors (ignore : means.callbacks.IgnoreCaching) (steady : means.transport.IsSteady)
    (concordant : Concordant asks) (mirrors : Mirrors means.transport asks first second)
    (asked : IsRemote rule → (Fields.get rule "apiEndpoint").truthy = true → ∀ question,
      Question.ofRule value rule context.settings = .ok question → asks rule question)
    (caching : context.caching = true) :
    (check means value rule context first).1 = (check means value rule (context.keeping cache false) second).1 ∧
      Mirrors means.transport asks (check means value rule context first).2
        (check means value rule (context.keeping cache false) second).2 := by
  by_cases remote : IsRemote rule
  · rw [check_of_remote _ remote, check_of_remote _ remote]
    unfold checkRemote
    cases address : (Fields.get rule "apiEndpoint").truthy with
    | false => exact ⟨rfl, mirrors⟩
    | true =>
      have posed : Question.ofRule value rule (context.keeping cache false).settings =
        Question.ofRule value rule context.settings := rfl
      simp only [Bool.not_true, Bool.false_eq_true, if_false, posed, caching, if_true]
      cases question : Question.ofRule value rule context.settings with
      | error fault => exact ⟨rfl, mirrors⟩
      | ok question => exact askOnce_mirrors steady concordant mirrors (asked remote address _ question)
  · rw [check_keeping value rule context cache false ignore second remote]
    refine ⟨check_of_not_remote remote mirrors.schemas, ?_, ?_⟩
    · rw [check_schemas, check_schemas, mirrors.schemas]
    · rw [check_traffic_of_not_remote _ remote]
      exact mirrors.kept

end Sessions

end Rule

/-- The same settings with outcomes kept within a pass, or not. -/
def Settings.keeping (settings : Settings) (enabled : Bool) : Settings :=
  { settings with cache := { settings.cache with enabled } }

namespace Pass

/-- A pass over a form has another party asked a question on behalf of a rule. -/
def Asks (context : Context) (rule : Fields) (question : Rule.Question) : Prop :=
  ∃ path fields subject, Form.HasField context.form path fields ∧ Poses context path fields subject rule ∧
    subject.stance rule = .judged ∧ Rule.IsRemote rule ∧ (Fields.get rule "apiEndpoint").truthy = true ∧
    Rule.Question.ofRule subject.value rule context.settings = .ok question

section Keeping

variable {means : Rule.Means} {context : Context} {cache : CacheSettings} (ignore : means.callbacks.IgnoreCaching)
  (steady : means.transport.IsSteady) (concordant : Rule.Concordant (Asks context)) (caching : context.caching = true)

theorem Paired.get_bind {σ τ β : Type} {related : Progress σ → Progress τ → Prop} {next : Progress σ → Pass σ β}
    {next' : Progress τ → Pass τ β} (rest : ∀ p q, related p q → Paired related (next p) (next' q)) :
    Paired related (get >>= next) (get >>= next') := by
  intro p q start
  rw [run_bind_of_ok run_get, run_bind_of_ok run_get]
  exact rest p q start p q start

include ignore steady concordant caching

theorem handled_keeping {path : Value} {fields rule : Fields} {subject : Subject}
    (has : Form.HasField context.form path fields) (poses : Poses context path fields subject rule) :
    Handled (Rule.Mirrors means.transport (Asks context)) (· = ·) (Rule.check means) (Rule.check means) subject
      (context.keeping cache false) rule where
  judged := by
    intro judged s t mirrors
    have inside := poses.inside
    have asked (remote : Rule.IsRemote rule) (address : (Fields.get rule "apiEndpoint").truthy = true)
        (question : Rule.Question) (posed : Rule.Question.ofRule subject.value rule subject.context.settings = .ok question) :
        Asks context rule question :=
      ⟨path, fields, subject, has, poses, judged, remote, address, by rw [← posed, inside]; rfl⟩
    have caching' : subject.context.caching = true := by rw [inside]; exact caching
    have other : (context.keeping cache false).child subject.context.path = subject.context.keeping cache false := by
      generalize subject.context.path = place at inside
      rw [inside]
      rfl
    obtain ⟨same, later⟩ := Rule.check_mirrors ignore steady concordant mirrors asked caching'
    rw [other]
    exact ⟨congrArg (outcomeOf rule) same, later⟩
  scored := fun _ key _ score s t same => by rw [same]

theorem checkForm_keeping : Paired (Twins (Rule.Mirrors means.transport (Asks context)) (· = ·))
    (checkForm (Rule.check means) context) (checkForm (Rule.check means) (context.keeping cache false)) := by
  refine Paired.lift_bind fun form known => Paired.lift_bind fun items listed => ?_
  have held : Dependency.itemsOf context.form = .ok (Item.ofList items) := by
    unfold listIn at listed
    rw [Value.eq_of_asObject known, Dependency.itemsOf_object, listed]
    rfl
  have checked : Paired (Twins (Rule.Mirrors means.transport (Asks context)) (· = ·))
      (checkItems (Rule.check means) context (.text "") Report.counting (Item.ofList items))
      (checkItems (Rule.check means) (context.keeping cache false) (.text "") Report.counting (Item.ofList items)) := by
    refine checkItems_paired ?_ _ _ _ fun item member path fields holds subject rule poses => ?_
    · rfl
    · exact handled_keeping ignore steady concordant caching ⟨_, held, item, member, holds⟩ poses
  refine checked.bind fun report => (Paired.lift _).bind fun rules => Paired.get_bind fun p q twins => ?_
  have scored (all : FormScores) : FormScores.applyAll (context.keeping cache false) all rules =
    FormScores.applyAll context all rules := applyAll_congr (by rfl) all rules
  rw [scored, twins.scores]
  exact (Paired.lift _).bind fun all => .pure _

end Keeping

end Pass

namespace Validator

/-- The report of a pass that keeps outcomes is that of a pass that does not. -/
theorem validate_keeping {settings : Settings} {table : Callback.Table} {transport : Rule.Transport}
    {submission : Submission} {session : Rule.Session} (nothing : session.traffic.kept = [])
    (pure : ∀ entry ∈ table, entry.2.IgnoresCaching) (steady : transport.IsSteady)
    (concordant : Rule.Concordant (Pass.Asks (submission.context (settings.keeping true)))) :
    (validate (Rule.check (means settings table transport)) (settings.keeping true) submission session).1 =
      (validate (Rule.check (means settings table transport)) (settings.keeping false) submission session).1 := by
  have ignore : (means settings table transport).callbacks.IgnoreCaching := by
    refine Rule.ignoreCaching_of_registry ?_ pure
    exact Registry.ignoresCaching_standard.withValidators pure settings.validators
  have others : submission.context (settings.keeping false) =
    (submission.context (settings.keeping true)).keeping { settings.cache with enabled := false } false := rfl
  have start : Pass.Twins (Rule.Mirrors transport (Pass.Asks (submission.context (settings.keeping true)))) (· = ·)
      { backend := session } { backend := session } := by
    refine ⟨⟨rfl, ?_⟩, rfl, rfl⟩
    rw [nothing]
    exact List.forall_mem_nil _
  unfold validate
  cases Dependency.Graph.ofForm submission.form with
  | error fault => rfl
  | ok graph =>
    rw [others]
    simp only
    obtain ⟨fault, p, q, left, right⟩ | ⟨checked, p, q, left, right, _⟩ :=
      Pass.checkForm_keeping ignore steady concordant rfl _ _ start
    · rw [left, right]
    · rw [left, right]
      rfl

namespace Codes

def asking (message : String) : Fields :=
  [(.text "type", .text "async"), (.text "apiEndpoint", .text "codes/known"), (.text "message", .text message)]

def field (name message : String) : Fields :=
  [(.text "name", .text name), (.text "validationRules", .list [.object (asking message)])]

/-- One code in two fields, with a message for each. -/
def submission (first second : String) : Submission where
  form := .ofFields [("items", .list [.object (field "old" first), .object (field "new" second)])]
  data := .ofFields [("old", .text "x1"), ("new", .text "x1")]
  now := .earliest

/-- What is said about the codes if nobody can be reached. -/
def report (caching : Bool) (first second : String) : Report :=
  (validate (Rule.check (means {} [] .offline)) (({} : Settings).keeping caching) (submission first second) {}).1

theorem asked_question {message : String} {rule : Fields} {question : Rule.Question}
    (asks : Pass.Asks ((submission message message).context (({} : Settings).keeping true)) rule question) :
    rule = asking message ∧ question = {
      address := .text "codes/known"
      method := Text.upper "POST"
      timeout := .int 5000
      payload := [(.text "value", .text "x1")] } := by
  obtain ⟨path, fields, subject, ⟨items, listed, item, member, holds⟩, ⟨given, _, taken, among, _, known⟩, _, _, _, posed⟩ :=
    asks
  cases listed
  have both : (path = .text "old" ∧ fields = field "old" message) ∨ (path = .text "new" ∧ fields = field "new" message) := by
    obtain rfl | rfl : item = .leaf (field "old" message) ∨ item = .leaf (field "new" message) :=
      (List.mem_cons.mp member).imp_right List.mem_singleton.mp
    · obtain ⟨rfl, _, _, place⟩ := holds.of_leaf
      cases place
      exact .inl ⟨rfl, rfl⟩
    · obtain ⟨rfl, _, _, place⟩ := holds.of_leaf
      cases place
      exact .inr ⟨rfl, rfl⟩
  have entered : subject.value = .text "x1" := by
    obtain ⟨value, looked, known⟩ := Fault.of_bind_ok known
    obtain ⟨name, _, known⟩ := Fault.of_bind_ok known
    cases known
    obtain ⟨rfl, rfl⟩ | ⟨rfl, rfl⟩ := both <;> exact (Except.ok.inj looked).symm
  obtain ⟨rfl, rfl⟩ | ⟨rfl, rfl⟩ := both <;>
  · cases given
    cases taken
    obtain rfl := List.mem_singleton.mp among
    rw [entered] at posed
    exact ⟨rfl, (Except.ok.inj posed).symm⟩

end Codes

open Codes in
theorem validate_keeping_codes : report true "unknown" "unknown" = report false "unknown" "unknown" := by
  refine validate_keeping rfl (List.forall_mem_nil _) (fun _ _ _ _ _ _ _ => rfl) ⟨fun rule question asks => ?_,
    fun rule question rule' question' asks asks' _ => ?_⟩
  · obtain ⟨_, rfl⟩ := asked_question asks
    refine ⟨⟨.scalar rfl, .object fun entry member => ?_⟩, rfl, rfl⟩
    rw [List.mem_singleton.mp member]
    exact .scalar rfl
  · obtain ⟨rfl, rfl⟩ := asked_question asks
    obtain ⟨rfl, rfl⟩ := asked_question asks'
    exact ⟨rfl, .refl _⟩

open Codes in
/-- The message of the rule that asks first stands with the field of the other one. -/
theorem keeping_first_message :
    (report true "unknown old code" "unknown new code").errors.map (·.message.shown) =
        ["unknown old code", "unknown old code"] ∧
      (report false "unknown old code" "unknown new code").errors.map (·.message.shown) =
        ["unknown old code", "unknown new code"] := by
  decide +kernel

end Validator

end FormRules

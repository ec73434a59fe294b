import FormRules.Proofs.Agreement
import FormRules.Proofs.CallHistory
import FormRules.Proofs.CanonicalText

/-! A value is accepted by a rule that asks another party only if that party said so in the same pass: an outcome
that was kept stems from an answer to the same question. -/

namespace FormRules.Rule

/-- Whether a reply says in so many words that a value is accepted. -/
def Reply.Affirms : Reply → Prop
  | .answer status body => 200 ≤ status ∧ status < 300 ∧ ∃ fields,
      Json.ofText (Json.withoutMark body) = .ok (.object fields) ∧ (Fields.get fields "valid").truthy = true
  | _ => False

/-- Questions with one address, one method and one payload, each of them up to the order of names. -/
structure Question.Same (asText : Bool) (first second : Question) : Prop where
  address : Json.SameDocument asText first.address second.address
  method : first.method = second.method
  payload : Json.SameDocument asText (.object first.payload) (.object second.payload)

namespace Question

/-- Questions of plain data only. -/
structure IsPlain (question : Question) : Prop where
  address : Json.IsPlain question.address
  payload : Json.IsPlain (.object question.payload)

theorem Same.refl (asText : Bool) (question : Question) : question.Same asText question :=
  ⟨.refl asText _, rfl, .refl asText _⟩

theorem Same.of_plain {first second : Question} (same : first.Same true second) (plain : first.IsPlain)
    (plain' : second.IsPlain) : first.Same false second :=
  ⟨same.address.of_plain plain.address plain'.address, same.method, same.payload.of_plain plain.payload plain'.payload⟩

/-- Questions whose outcomes are kept under one text are the same question. -/
theorem same_of_key {first second : Question} {key : String} (left : first.key = .ok key)
    (right : second.key = .ok key) : first.Same true second := by
  obtain ⟨text, written, ended⟩ := Fault.of_bind_ok left
  obtain ⟨text', written', ended'⟩ := Fault.of_bind_ok right
  cases ended
  have texts : text' = text := by
    have := congrArg String.toList (Except.ok.inj ended')
    simpa [String.toList_append, String.toList_inj] using this
  subst texts
  cases Json.sameDocument_of_canonical written written' with
  | text shown _ => cases shown
  | list related =>
    cases related with
    | cons address related =>
      cases related with
      | cons method related =>
        cases related with
        | cons payload _ => exact ⟨address, (Option.some.inj method.of_text).symm, payload⟩

end Question

/-- The question that a call asks, if it asks one. -/
def Call.question? : Call → Option Question
  | .check value rule context =>
    if RuleKind.ofValue? (Fields.get rule "type") = some .async ∧ (Fields.get rule "apiEndpoint").truthy = true then
      (Question.ofRule value rule context.settings).toOption
    else none
  | _ => none

/-- A request was sent for a question, and its reply says that the value is accepted. -/
def Sent (transport : Transport) (question : Question) (before after : Traffic) : Prop :=
  ∃ timeout request, question.request timeout = .ok request ∧ after.requests = before.requests ++ [request] ∧
    (transport before.requests request).Affirms

/-- A call asks a question and sends a request for it, and the reply says that the value is accepted. -/
structure Call.IsAffirmed (means : Means) (session : Session) (call : Call) (question : Question) : Prop where
  asked : call.question? = some question
  sent : Sent means.transport question session.traffic (call.run means session).traffic

/-- One of some calls asks a question, and the reply says that the value is accepted. -/
def Affirmed (means : Means) (start : Session) (calls : List Call) (question : Question) : Prop :=
  ∃ earlier call later, calls = earlier ++ call :: later ∧ call.IsAffirmed means (start.after means earlier) question

theorem judgeBody_valid {rule : Fields} {body : String} (valid : (judgeBody rule body).valid = true) :
    ∃ fields, Json.ofText body = .ok (.object fields) ∧ (Fields.get fields "valid").truthy = true := by
  unfold judgeBody at valid
  split at valid
  next fields read =>
    split at valid
    next yes => exact ⟨fields, read, yes⟩
    next => cases valid
  next => cases valid

theorem judge_valid {rule : Fields} {reply : Reply} {outcome : Outcome} (ended : judge rule reply = .ok outcome)
    (valid : outcome.valid = true) : reply.Affirms := by
  cases reply with
  | answer status body =>
    cases ended
    split at valid
    next within =>
      rw [Bool.and_eq_true, decide_eq_true_eq, decide_eq_true_eq] at within
      exact ⟨within.1, within.2, judgeBody_valid valid⟩
    next => cases valid
  | timeout | unreachable =>
    cases ended
    cases valid
  | broken => cases ended

section Remote

variable {transport : Transport} {value : Value} {rule : Fields} {context : Context} {question : Question}
  {traffic : Traffic} {outcome : Outcome}

/-- A question whose outcome is a good one was sent and affirmed. -/
theorem ask_valid (ended : (ask transport rule question traffic).1 = .ok outcome) (valid : outcome.valid = true) :
    Sent transport question traffic (ask transport rule question traffic).2 := by
  unfold ask at ended ⊢
  cases waiting : question.seconds with
  | error fault =>
    rw [waiting] at ended
    cases ended
  | ok timeout =>
    rw [waiting] at ended
    simp only at ended ⊢
    split at ended
    next =>
      cases ended
      cases valid
    next time =>
      rw [if_neg time]
      cases sent : question.request timeout with
      | error fault =>
        rw [sent] at ended
        cases ended
      | ok request =>
        rw [sent] at ended
        exact ⟨timeout, request, sent, rfl, judge_valid ended valid⟩

theorem ask_kept (transport : Transport) (rule : Fields) (question : Question) (traffic : Traffic) :
    (ask transport rule question traffic).2.kept = traffic.kept := by
  unfold ask
  split
  · rfl
  · split
    · rfl
    · split <;> rfl

/-- A question is not asked if its outcome is kept; otherwise it is, and what comes of it is kept. -/
theorem askOnce_cases (transport : Transport) (rule : Fields) (question : Question) (traffic : Traffic) :
    (∃ fault, question.key = .error fault ∧ askOnce transport rule question traffic = (.error fault, traffic)) ∨
      (∃ key outcome, question.key = .ok key ∧ traffic.kept.lookup key = some outcome ∧
        askOnce transport rule question traffic = (.ok outcome, traffic)) ∨
      ∃ key, question.key = .ok key ∧ traffic.kept.lookup key = none ∧
        askOnce transport rule question traffic = ((ask transport rule question traffic).1,
          match (ask transport rule question traffic).1 with
          | .ok outcome => { (ask transport rule question traffic).2 with kept := (key, outcome) :: traffic.kept }
          | .error _ => (ask transport rule question traffic).2) := by
  have same := ask_kept transport rule question traffic
  unfold askOnce
  cases question.key with
  | error fault => exact .inl ⟨fault, rfl, rfl⟩
  | ok key =>
    simp only
    cases found : traffic.kept.lookup key with
    | some outcome => exact .inr (.inl ⟨key, outcome, rfl, found, rfl⟩)
    | none =>
      refine .inr (.inr ⟨key, rfl, found, ?_⟩)
      rw [← same]
      obtain ⟨result, after⟩ := ask transport rule question traffic
      cases result <;> rfl

theorem mem_of_lookup {α : Type} {key : String} {entry : α} {entries : List (String × α)}
    (found : entries.lookup key = some entry) : (key, entry) ∈ entries := by
  obtain ⟨before, after, rfl, _⟩ := List.lookup_eq_some_iff.mp found
  simp

/-- A good outcome was kept from before, or the question was sent and affirmed. -/
theorem askOnce_valid (ended : (askOnce transport rule question traffic).1 = .ok outcome) (valid : outcome.valid = true) :
    (∃ key, question.key = .ok key ∧ (key, outcome) ∈ traffic.kept) ∨
      Sent transport question traffic (askOnce transport rule question traffic).2 := by
  obtain ⟨fault, _, same⟩ | ⟨key, known, keyed, found, same⟩ | ⟨key, _, _, same⟩ :=
    askOnce_cases transport rule question traffic <;> rw [same] at ended ⊢
  · cases ended
  · cases ended
    exact .inl ⟨key, keyed, mem_of_lookup found⟩
  · have sent := ask_valid ended valid
    simp only at ended ⊢
    rw [ended]
    exact .inr sent

/-- What is kept was kept before, or it is the outcome of the question. -/
theorem askOnce_kept {entry : String × Outcome} (kept : entry ∈ (askOnce transport rule question traffic).2.kept) :
    entry ∈ traffic.kept ∨ question.key = .ok entry.1 ∧
      (entry.2.valid = true → Sent transport question traffic (askOnce transport rule question traffic).2) := by
  obtain ⟨fault, _, same⟩ | ⟨key, known, keyed, found, same⟩ | ⟨key, keyed, _, same⟩ :=
    askOnce_cases transport rule question traffic <;> rw [same] at kept ⊢
  · exact .inl kept
  · exact .inl kept
  · cases asked : (ask transport rule question traffic).1 with
    | error fault =>
      simp only [asked] at kept
      rw [ask_kept] at kept
      exact .inl kept
    | ok outcome =>
      simp only [asked] at kept ⊢
      obtain rfl | before := List.mem_cons.mp kept
      · exact .inr ⟨keyed, ask_valid asked⟩
      · exact .inl before

/-- A value is accepted by a rule with an address if that is kept for its question, or if the question is sent
and affirmed. -/
theorem checkRemote_valid (address : (Fields.get rule "apiEndpoint").truthy = true)
    (ended : (checkRemote transport value rule context traffic).1 = .ok outcome) (valid : outcome.valid = true) :
    ∃ question, Question.ofRule value rule context.settings = .ok question ∧
      ((∃ key, question.key = .ok key ∧ (key, outcome) ∈ traffic.kept) ∨
        Sent transport question traffic (checkRemote transport value rule context traffic).2) := by
  unfold checkRemote at ended ⊢
  simp only [address, Bool.not_true, Bool.false_eq_true, if_false] at ended ⊢
  cases posed : Question.ofRule value rule context.settings with
  | error fault =>
    rw [posed] at ended
    cases ended
  | ok question =>
    refine ⟨question, rfl, ?_⟩
    simp only [posed] at ended ⊢
    split at ended
    next caching =>
      rw [if_pos caching]
      exact askOnce_valid ended valid
    next always =>
      rw [if_neg always]
      exact .inr (ask_valid ended valid)

theorem checkRemote_kept {entry : String × Outcome}
    (kept : entry ∈ (checkRemote transport value rule context traffic).2.kept) :
    entry ∈ traffic.kept ∨ (Fields.get rule "apiEndpoint").truthy = true ∧
      ∃ question, Question.ofRule value rule context.settings = .ok question ∧ question.key = .ok entry.1 ∧
        (entry.2.valid = true → Sent transport question traffic (checkRemote transport value rule context traffic).2) := by
  unfold checkRemote at kept ⊢
  cases address : (Fields.get rule "apiEndpoint").truthy with
  | false =>
    rw [address] at kept
    exact .inl kept
  | true =>
    simp only [address, Bool.not_true, Bool.false_eq_true, if_false] at kept ⊢
    cases posed : Question.ofRule value rule context.settings with
    | error fault =>
      rw [posed] at kept
      exact .inl kept
    | ok question =>
      simp only [posed] at kept ⊢
      split at kept
      next caching =>
        rw [if_pos caching]
        exact (askOnce_kept kept).imp_right fun new => ⟨trivial, question, rfl, new⟩
      next =>
        rw [ask_kept] at kept
        exact .inl kept

end Remote

/-- Once a question was affirmed in the course of some calls, it stays so. -/
theorem Affirmed.append {means : Means} {start : Session} {calls : List Call} {question : Question}
    (affirmed : Affirmed means start calls question) (more : List Call) :
    Affirmed means start (calls ++ more) question := by
  obtain ⟨earlier, call, later, rfl, yes⟩ := affirmed
  exact ⟨earlier, call, later ++ more, by simp, yes⟩

/-- Whether each good outcome that is kept stems from a question that was affirmed. -/
def KeepsAffirmed (means : Means) (start : Session) (calls : List Call) : Prop :=
  ∀ key outcome, (key, outcome) ∈ (start.after means calls).traffic.kept → outcome.valid = true →
    ∃ question, question.key = .ok key ∧ Affirmed means start calls question

section Pass

variable {means : Means} {start : Session} {calls : List Call} {value : Value} {rule : Fields} {context : Context}

/-- A call that sends a question and has it affirmed affirms it for the calls up to it. -/
theorem affirmed_of_sent {question : Question} (remote : IsRemote rule)
    (address : (Fields.get rule "apiEndpoint").truthy = true)
    (posed : Question.ofRule value rule context.settings = .ok question)
    (sent : Sent means.transport question (start.after means calls).traffic
      (checkRemote means.transport value rule context (start.after means calls).traffic).2) :
    Affirmed means start (calls ++ [.check value rule context]) question := by
  refine ⟨calls, .check value rule context, [], rfl, ?_, ?_⟩
  · rw [Call.question?, if_pos ⟨remote, address⟩, posed]
    rfl
  · rw [Call.run, check_of_remote _ remote]
    exact sent

theorem keepsAffirmed_after (nothing : start.traffic.kept = []) (calls : List Call) :
    KeepsAffirmed means start calls := by
  induction calls using List.reverseRecOn with
  | nil =>
    intro key outcome kept
    rw [Session.after_nil, nothing] at kept
    cases kept
  | append_singleton calls call ih =>
    intro key outcome kept valid
    rw [Session.after_concat] at kept
    have before (kept : (key, outcome) ∈ (start.after means calls).traffic.kept) :
        ∃ question, question.key = .ok key ∧ Affirmed means start (calls ++ [call]) question := by
      obtain ⟨question, keyed, affirmed⟩ := ih key outcome kept valid
      exact ⟨question, keyed, affirmed.append [call]⟩
    cases call with
    | fetch schema => exact before kept
    | clear => exact before kept
    | check value rule context =>
      rw [Call.run] at kept
      by_cases remote : IsRemote rule
      · rw [check_of_remote _ remote] at kept
        obtain kept | ⟨address, question, posed, keyed, sent⟩ := checkRemote_kept kept
        · exact before kept
        · exact ⟨question, keyed, affirmed_of_sent remote address posed (sent valid)⟩
      · rw [check_traffic_of_not_remote _ remote] at kept
        exact before kept

/-- In a pass that starts with nothing kept, a value is accepted by a rule that asks another party only if the
same question was asked in this pass, by this rule or by one before it, was sent, and was answered with a good
status and a body that says so. -/
theorem accepted_affirmed {outcome : Outcome} (nothing : start.traffic.kept = []) (remote : IsRemote rule)
    (address : (Fields.get rule "apiEndpoint").truthy = true)
    (ended : (check means value rule context (start.after means calls)).1 = .ok outcome)
    (valid : outcome.valid = true) :
    ∃ question asked, Question.ofRule value rule context.settings = .ok question ∧
      Affirmed means start (calls ++ [.check value rule context]) asked ∧ asked.Same true question ∧
      (asked.IsPlain → question.IsPlain → asked.Same false question) := by
  rw [check_of_remote _ remote] at ended
  obtain ⟨question, posed, ⟨key, keyed, kept⟩ | sent⟩ := checkRemote_valid address ended valid
  · obtain ⟨asked, keyed', affirmed⟩ := keepsAffirmed_after nothing calls key outcome kept valid
    have same := Question.same_of_key keyed' keyed
    exact ⟨question, asked, posed, affirmed.append _, same, same.of_plain⟩
  · exact ⟨question, question, posed, affirmed_of_sent remote address posed sent, .refl true question,
      fun _ _ => .refl false question⟩

end Pass

namespace Asking

def rule : Fields := [(.text "type", .text "async"), (.text "apiEndpoint", .text "http://names/free")]

def context : Context := { Context.ofData (.object []) with caching := true }

/-- Says yes to the first question, and nothing afterwards. -/
def transport : Transport := fun requests _ =>
  if requests.isEmpty then .answer 200 "\x7b\"valid\": true\x7d" else .unreachable

def means : Means := { callbacks := { registry := .standard }, transport }

def calls : List Call := [.check (.text "ann") rule context]

end Asking

open Asking in
/-- A second rule is accepted by what the first one was told. -/
theorem accepted_affirmed_before :
    ∃ outcome, IsRemote rule ∧ (check means (.text "ann") rule context (Session.after means {} calls)).1 = .ok outcome ∧
      outcome.valid = true ∧ ∃ question asked, Question.ofRule (.text "ann") rule context.settings = .ok question ∧
        Affirmed means {} (calls ++ [.check (.text "ann") rule context]) asked ∧ asked.Same true question ∧
        (asked.IsPlain → question.IsPlain → asked.Same false question) := by
  have accepted : ((check means (.text "ann") rule context (Session.after means {} calls)).1.map (·.valid)).toOption =
      some true := by decide +kernel
  cases ended : (check means (.text "ann") rule context (Session.after means {} calls)).1 with
  | error fault =>
    rw [ended] at accepted
    cases accepted
  | ok outcome =>
    rw [ended] at accepted
    have valid : outcome.valid = true := Option.some.inj accepted
    exact ⟨outcome, rfl, rfl, valid, accepted_affirmed rfl rfl rfl ended valid⟩

open Asking in
/-- No request has the payload of the rule that is accepted: a day is accepted by what was said of the text that it is
written as, and a question that is not posted is sent without its payload. -/
theorem accepted_affirmed_unsent :
    let day : Date := ⟨2024, 5, 15, by decide, by decide, by decide⟩
    let got : Fields := rule ++ [(.text "apiMethod", .text "get")]
    let valid? (value : Value) (rule : Fields) (calls : List Call) :=
      ((check means value rule context (Session.after means {} calls)).1.map (·.valid)).toOption
    let carried (value : Value) (rule : Fields) (calls : List Call) : Bool :=
      (check means value rule context (Session.after means {} calls)).2.traffic.requests.any fun request =>
        request.body.same (.object [(.text "value", value)])
    valid? (.date day) rule [.check (.text "2024-05-15") rule context] = some true ∧
      carried (.date day) rule [.check (.text "2024-05-15") rule context] = false ∧
      valid? (.text "ann") got [] = some true ∧ carried (.text "ann") got [] = false ∧
      valid? (.text "ann") rule [] = some true ∧ carried (.text "ann") rule [] = true := by
  decide +kernel

end FormRules.Rule

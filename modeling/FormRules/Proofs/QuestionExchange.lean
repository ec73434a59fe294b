import FormRules.Proofs.RemoteAnswers
import FormRules.Proofs.TextNames

/-! When the outcome of one question may stand for that of another: both are the same document, the rules have the
same message, and there is time to wait for both answers or for neither. -/

namespace FormRules

namespace Json

theorem checkItems_ok_iff {items : List Value} :
    checkItems items = .ok () ↔ ∀ item ∈ items, checkSendable item = .ok () := by
  induction items with
  | nil => simp [checkItems]
  | cons item items ih =>
    rw [checkItems, List.forall_mem_cons, ← ih]
    cases checkSendable item with
    | error fault => exact ⟨nofun, fun both => nomatch both.1⟩
    | ok => exact ⟨fun rest => ⟨rfl, rest⟩, fun both => both.2⟩

theorem checkFields_ok_iff {fields : Fields} :
    checkFields fields = .ok () ↔ ∀ field ∈ fields, checkKey field.1 = .ok () ∧ checkSendable field.2 = .ok () := by
  induction fields with
  | nil => simp [checkFields]
  | cons field fields ih =>
    rw [checkFields, List.forall_mem_cons, ← ih]
    cases checkKey field.1 with
    | error fault => exact ⟨nofun, fun all => nomatch all.1.1⟩
    | ok =>
      cases checkSendable field.2 with
      | error fault => exact ⟨nofun, fun all => nomatch all.1.2⟩
      | ok => exact ⟨fun rest => ⟨⟨rfl, rfl⟩, rest⟩, fun all => all.2⟩

theorem SameField.textName {asText : Bool} {field other : Scalar × Value} (same : SameField asText field other)
    (named : (Value.scalar field.1).isText = true) (named' : (Value.scalar other.1).isText = true) :
    field.1 = other.1 ∧ SameDocument asText field.2 other.2 := by
  cases same with
  | keyed same => exact ⟨rfl, same⟩
  | named left right same =>
    obtain ⟨name, known⟩ := Value.isText_iff.mp named
    obtain ⟨name', known'⟩ := Value.isText_iff.mp named'
    cases known
    cases known'
    cases left
    cases right
    exact ⟨rfl, same⟩

theorem mem_of_forall₂ {α β : Type} {relation : α → β → Prop} {items : List α} {others : List β}
    (related : List.Forall₂ relation items others) {other : β} (member : other ∈ others) :
    ∃ item ∈ items, relation item other := by
  induction related with
  | nil => cases member
  | cons here _ ih =>
    cases member with
    | head => exact ⟨_, List.mem_cons_self, here⟩
    | tail _ later =>
      obtain ⟨item, among, same⟩ := ih later
      exact ⟨item, List.mem_cons_of_mem _ among, same⟩

/-- A document can be sent just as well with its names in another order. -/
theorem SameDocument.checkSendable {value : Value} : ∀ {other : Value}, SameDocument false value other →
    value.isTextNamed = true → other.isTextNamed = true → checkSendable value = .ok () → checkSendable other = .ok () := by
  induction value using Value.nested_induction with
  | scalar s =>
    intro other same _ _ sendable
    cases same with
    | scalar _ => exact sendable
    | text _ shown => exact eq_text_of_textOf? shown ▸ checkSendable_text _
  | handle name => exact fun _ _ _ sendable => nomatch sendable
  | list items ih =>
    intro other same named named' sendable
    cases same with
    | text shown _ => cases shown
    | list related =>
      have all := checkItems_ok_iff.mp sendable
      refine checkItems_ok_iff.mpr fun other member => ?_
      obtain ⟨item, among, same⟩ := mem_of_forall₂ related member
      exact ih item among same (Value.areTextNamed_iff.mp named item among) (Value.areTextNamed_iff.mp named' other member)
        (all item among)
  | object fields ih =>
    intro other same named named' sendable
    cases same with
    | text shown _ => cases shown
    | object perm related =>
      have all := checkFields_ok_iff.mp sendable
      refine checkFields_ok_iff.mpr fun other member => ?_
      obtain ⟨field, among, same⟩ := mem_of_forall₂ related (perm.mem_iff.mpr member)
      obtain ⟨key, inner⟩ := Value.haveTextNames_iff.mp named field among
      obtain ⟨key', inner'⟩ := Value.haveTextNames_iff.mp named' other member
      obtain ⟨keyed, same⟩ := same.textName key key'
      obtain ⟨sent, sent'⟩ := all field among
      exact ⟨keyed ▸ sent, ih field among same inner inner' sent'⟩

end Json

namespace Rule

/-- Another party that goes by the method, the address and the body of a request, be the names of the body in this
order or that. -/
def Transport.IsSteady (transport : Transport) : Prop :=
  ∀ requests requests' (request request' : Request), request.method = request'.method →
    request.address = request'.address → Json.SameDocument false request.body request'.body →
    transport requests request = transport requests' request'

namespace Question

/-- Whether there is time to wait for the answer to a question. -/
def waits (question : Question) : Except Fault Bool :=
  question.seconds.map fun timeout => !Comparison.lessEqual.numbers (.float timeout) (.int 0)

/-- Questions about plain data in which all names are texts. -/
structure IsDocument (question : Question) : Prop where
  plain : question.IsPlain
  address : question.address.isTextNamed = true
  payload : (Value.object question.payload).isTextNamed = true

theorem IsDocument.key {question : Question} (document : question.IsDocument) : ∃ key, question.key = .ok key := by
  have named : (Value.list [question.address, .text question.method, .object question.payload]).isTextNamed = true :=
    Value.areTextNamed_iff.mpr (by simpa using ⟨document.address, rfl, document.payload⟩)
  obtain ⟨text, written, _⟩ := Json.canonical_yields _ named
  exact ⟨"async:" ++ text, by rw [Question.key, written]; rfl⟩

end Question

/-- Two rules for which the outcome of one question may stand for that of the other. -/
structure Exchangeable (rule rule' : Fields) (question question' : Question) : Prop where
  message : (Fields.get rule "message").orElse .null = (Fields.get rule' "message").orElse .null
  waits : Alike question.waits question'.waits

section Exchange

variable {rule rule' : Fields} {question question' : Question} {transport : Transport}

theorem orElse_congr {value value' : Value} (same : value.orElse .null = value'.orElse .null) (other : Value) :
    value.orElse other = value'.orElse other := by
  have truth (given : Value) : (given.orElse .null).truthy = given.truthy := by
    unfold Value.orElse
    split
    · rfl
    next no => rw [Bool.not_eq_true _ |>.mp no]; rfl
  have alike : value.truthy = value'.truthy := by rw [← truth value, same, truth]
  unfold Value.orElse at same ⊢
  rw [← alike] at same ⊢
  split at same
  next yes => rw [same]
  next no => rw [if_neg no, if_neg no]

theorem judge_congr (message : (Fields.get rule "message").orElse .null = (Fields.get rule' "message").orElse .null)
    (reply : Reply) : judge rule reply = judge rule' reply := by
  have failure (own : String) : Outcome.failure rule own = Outcome.failure rule' own := by
    rw [Outcome.failure, Outcome.failure, orElse_congr message]
  unfold judge judgeBody
  simp only [failure]

/-- The reply to a question, if it is asked and there is any. -/
theorem ask_cases (transport : Transport) (rule : Fields) (question : Question) (traffic : Traffic) :
    (ask transport rule question traffic).1 = (do
      let timeout ← question.seconds
      if Comparison.lessEqual.numbers (.float timeout) (.int 0) then judge rule .timeout
      else judge rule (transport traffic.requests (← question.request timeout))) := by
  unfold ask
  cases question.seconds with
  | error fault => rfl
  | ok timeout =>
    simp only
    show _ = if _ then _ else _
    split
    · rfl
    · cases question.request timeout <;> rfl

theorem request_ok {timeout : Number.Binary64} {request : Request} (made : question.request timeout = .ok request) :
    question.address = .text request.address ∧ request.method = question.method ∧
      request.body = (if question.method == "POST" then .object question.payload else .null) ∧
      Json.checkSendable request.body = .ok () := by
  unfold Question.request at made
  simp only at made
  split at made
  next address known =>
    obtain ⟨_, sendable, made⟩ := Fault.of_bind_ok made
    cases made
    exact ⟨known, rfl, rfl, sendable⟩
  next => cases made

/-- What is asked of another party for one question can be asked for the same question in other words. -/
theorem request_same (same : question.Same false question') (document : question.IsDocument)
    (document' : question'.IsDocument) {timeout : Number.Binary64} {request : Request}
    (made : question.request timeout = .ok request) (timeout' : Number.Binary64) :
    ∃ request', question'.request timeout' = .ok request' ∧ request.method = request'.method ∧
      request.address = request'.address ∧ Json.SameDocument false request.body request'.body := by
  obtain ⟨address, method, body, sendable⟩ := request_ok made
  have address' : question'.address = .text request.address := Json.eq_text_of_textOf? (address ▸ same.address).of_text
  let body' : Value := if question'.method == "POST" then .object question'.payload else .null
  have bodies : Json.SameDocument false request.body body' ∧ Json.checkSendable body' = .ok () := by
    rw [body] at sendable ⊢
    simp only [body', ← same.method]
    split at sendable
    next posted =>
      rw [if_pos posted, if_pos posted]
      exact ⟨same.payload, same.payload.checkSendable document.payload document'.payload sendable⟩
    next other =>
      rw [if_neg other, if_neg other]
      exact ⟨.refl false .null, rfl⟩
  refine ⟨⟨question'.method, request.address, body', timeout'⟩, ?_, method.trans same.method, rfl, bodies.1⟩
  unfold Question.request
  rw [address']
  show (Json.checkSendable body' >>= fun _ => _) = _
  rw [bodies.2]
  rfl

/-- What becomes of a question does not depend on what was asked before. -/
theorem ask_steady (steady : transport.IsSteady) (traffic traffic' : Traffic) :
    (ask transport rule question traffic).1 = (ask transport rule question traffic').1 := by
  have same (request : Request) : transport traffic.requests request = transport traffic'.requests request :=
    steady _ _ request request rfl rfl (.refl false request.body)
  simp only [ask_cases, same]

/-- What becomes of a question becomes of the same question for another rule, if the rules can be exchanged. -/
theorem ask_exchange (steady : transport.IsSteady) (same : question.Same false question')
    (document : question.IsDocument) (document' : question'.IsDocument)
    (exchangeable : Exchangeable rule rule' question question') {traffic : Traffic} {outcome : Outcome}
    (ended : (ask transport rule question traffic).1 = .ok outcome) (traffic' : Traffic) :
    (ask transport rule' question' traffic').1 = .ok outcome := by
  rw [ask_cases] at ended ⊢
  obtain ⟨timeout, given, ended⟩ := Fault.of_bind_ok ended
  have waits : question.waits = .ok (!Comparison.lessEqual.numbers (.float timeout) (.int 0)) := by
    rw [Question.waits, given]
    rfl
  obtain ⟨timeout', given', late⟩ : ∃ timeout', question'.seconds = .ok timeout' ∧
      Comparison.lessEqual.numbers (.float timeout') (.int 0) = Comparison.lessEqual.numbers (.float timeout) (.int 0) := by
    obtain ⟨answer, left, right⟩ | ⟨fault, _, left, _⟩ := exchangeable.waits.same_or_faults
    · rw [waits] at left
      cases left
      rw [Question.waits] at right
      cases given' : question'.seconds with
      | error fault =>
        rw [given'] at right
        cases right
      | ok timeout' =>
        rw [given'] at right
        exact ⟨timeout', rfl, Bool.not_inj (Except.ok.inj right)⟩
    · rw [waits] at left
      cases left
  rw [given']
  show (if _ then _ else _) = _
  rw [late]
  split at ended
  next none => rw [if_pos none, ← ended, judge_congr exchangeable.message]
  next time =>
    obtain ⟨request, made, ended⟩ := Fault.of_bind_ok ended
    obtain ⟨request', made', method, address, body⟩ := request_same same document document' made timeout'
    rw [if_neg time, made', ← ended, judge_congr exchangeable.message]
    show judge rule' (transport traffic'.requests request') = judge rule' (transport traffic.requests request)
    rw [steady _ _ _ _ method address body]

end Exchange

end Rule

end FormRules

import FormRules.Pass.Progress
import FormRules.Proofs.Agreement
import FormRules.Proofs.Messages

/-! What the standard backend says of a failure is a text, however the rule was checked, unless another party is
quoted; what is kept of its answers is no different. So are the texts of faults. -/

namespace FormRules

/-- A result that has a text to say for itself, or nothing, wherever it is an outcome. -/
def Worded (result : Except Fault Outcome) : Prop := ∀ outcome, result = .ok outcome → outcome.error.IsMessage

namespace Worded

variable {α : Type} {rule : Fields}

theorem error (fault : Fault) : Worded (.error fault) := fun _ ended => nomatch ended

theorem ok {outcome : Outcome} (message : outcome.error.IsMessage) : Worded (.ok outcome) := by
  intro _ ended
  cases ended
  exact message

theorem pass : Worded (.ok .pass) := ok .absent

theorem bind {first : Except Fault α} {next : α → Except Fault Outcome} (rest : ∀ value, Worded (next value)) :
    Worded (first >>= next) := by
  intro outcome ended
  obtain ⟨value, _, ended⟩ := Fault.of_bind_ok ended
  exact rest value outcome ended

end Worded

namespace Rule

variable {rule : Fields} (message : (Fields.get rule "message").IsMessage)

include message

theorem failure_isMessage (own : String) : (Outcome.failure rule own).error.IsMessage := message.orElse (.text own)

theorem failure_worded (own : String) : Worded (.ok (.failure rule own)) := .ok (failure_isMessage message own)

theorem failureSaying_isMessage (shown fallback : String) : (failureSaying shown rule fallback).error.IsMessage :=
  Value.IsMessage.orElse (.text shown) (message.orElse (.text fallback))

theorem checkCompare_worded (value : Value) (context : Context) : Worded (checkCompare value rule context) := by
  unfold checkCompare
  simp only
  split
  · exact .pass
  · refine .bind fun target => .bind fun holds => ?_
    split
    · exact .pass
    · exact failure_worded message _

theorem call_worded (callbacks : Callbacks) (reference argument : Value) (context : Context) (fallback : String) :
    Worded (call callbacks reference argument context rule fallback) := by
  unfold call
  refine .bind fun callback? => ?_
  split
  · exact failure_worded message _
  · split
    · split
      · exact .pass
      · exact failure_worded message _
    · exact .ok (failureSaying_isMessage message _ _)

theorem checkCustom_worded (callbacks : Callbacks) (value : Value) (context : Context) :
    Worded (checkCustom callbacks value rule context) := by
  unfold checkCustom
  simp only
  split
  · exact call_worded message _ _ _ _ _
  · exact .pass

theorem checkCrossField_worded (callbacks : Callbacks) (value : Value) (context : Context) :
    Worded (checkCrossField callbacks value rule context) := by
  unfold checkCrossField
  simp only
  split
  · exact .pass
  · split
    · exact .pass
    · exact .bind fun targets => .bind fun values => call_worded message _ _ _ _ _

theorem checkPlugin_worded (callbacks : Callbacks) (value : Value) (context : Context) :
    Worded (checkPlugin callbacks value rule context) := by
  unfold checkPlugin
  simp only
  split
  · exact call_worded message _ _ _ _ _
  · exact .pass

theorem checkSchedule_worded (now : Moment) (schedule : Fields) : Worded (checkSchedule now rule schedule) := by
  unfold checkSchedule
  refine .bind fun today => ?_
  split
  · exact failure_worded message _
  · refine .bind fun inTime => ?_
    split
    · exact .pass
    · exact failure_worded message _

theorem checkTemporal_worded (context : Context) : Worded (checkTemporal rule context) := by
  unfold checkTemporal
  refine .bind fun start? => .bind fun stop? => .bind fun grace => .bind fun early? => ?_
  split
  · exact failure_worded message _
  · exact failure_worded message _
  · exact .bind fun schedule => checkSchedule_worded message _ schedule

theorem checkStatic_worded (kind : RuleKind) (value : Value) (store : Schema.Store) :
    Worded (checkStatic kind rule value store).1 := by
  unfold checkStatic
  split
  · exact .pass
  · split
    · unfold checkBySchema
      refine .bind fun violated? => ?_
      split
      · exact .pass
      · exact failure_worded message _
    · exact .error _

/-- A fault is no exception. -/
theorem outcomeOf_isMessage {result : Except Fault Outcome} (told : Worded result) :
    (Pass.outcomeOf rule result).error.IsMessage := by
  cases result with
  | ok outcome => exact told outcome rfl
  | error fault => exact failureSaying_isMessage message _ _

end Rule

/-- Another party whose answers, where they are objects with a message, have a text as the message. -/
def Rule.Transport.Worded (transport : Transport) : Prop :=
  ∀ before request status body fields, transport before request = .answer status body →
    Json.ofText (Json.withoutMark body) = .ok (.object fields) → (Fields.get fields "message").truthy = true →
    ∃ shown, Fields.get fields "message" = .text shown

/-- Traffic of which no outcome is kept that has anything but a text to say. -/
def Rule.Traffic.Worded (traffic : Traffic) : Prop := ∀ entry ∈ traffic.kept, entry.2.error.IsMessage

namespace Rule

/-- What can be said of a failure: a message, or what another party gives as one in an answer. -/
inductive Saying (transport : Transport) : Value → Prop
  | own {value : Value} (message : value.IsMessage) : Saying transport value
  | quoted {before : List Request} {request : Request} {status : Int} {body : String} {fields : Fields}
      (reply : transport before request = .answer status body)
      (read : Json.ofText (Json.withoutMark body) = .ok (.object fields))
      (present : (Fields.get fields "message").truthy = true) : Saying transport (Fields.get fields "message")

theorem Saying.isMessage {transport : Transport} (worded : transport.Worded) {value : Value} (saying : Saying transport value) :
    value.IsMessage := by
  cases saying with
  | own message => exact message
  | quoted reply read present =>
    obtain ⟨shown, given⟩ := worded _ _ _ _ _ reply read present
    exact given ▸ .text shown

/-- Traffic of which no outcome is kept that says anything else. -/
def Traffic.Sayings (traffic : Traffic) (transport : Transport) : Prop :=
  ∀ entry ∈ traffic.kept, Saying transport entry.2.error

section Remote

variable {rule : Fields} (message : (Fields.get rule "message").IsMessage) (transport : Transport)

theorem saying_of_worded {result : Except Fault Outcome} (worded : Worded result) :
    Ensures result fun outcome => Saying transport outcome.error :=
  fun outcome ended => .own (worded outcome ended)

include message

theorem judge_saying (before : List Request) (request : Request) :
    Ensures (judge rule (transport before request)) fun outcome => Saying transport outcome.error := by
  cases reply : transport before request with
  | timeout => exact .ok (.own (failure_isMessage message _))
  | unreachable => exact .ok (.own (failure_isMessage message _))
  | broken => exact .error _
  | answer status body =>
    refine .ok ?_
    split
    · unfold judgeBody
      simp only
      split
      next fields read =>
        split
        · exact .own .absent
        · simp only [Value.orElse]
          split
          next present => exact .quoted reply read present
          next => exact .own (failure_isMessage message _)
      · exact .own (failure_isMessage message _)
    · exact .own (failure_isMessage message _)

variable {traffic : Traffic} (kept : traffic.Sayings transport)

include kept

theorem ask_saying (question : Question) :
    Ensures (ask transport rule question traffic).1 (fun outcome => Saying transport outcome.error) ∧
      (ask transport rule question traffic).2.Sayings transport := by
  unfold ask
  split
  · exact ⟨.error _, kept⟩
  · split
    · exact ⟨.ok (.own (failure_isMessage message _)), kept⟩
    · split
      · exact ⟨.error _, kept⟩
      · exact ⟨judge_saying message transport _ _, kept⟩

theorem askOnce_saying (question : Question) :
    Ensures (askOnce transport rule question traffic).1 (fun outcome => Saying transport outcome.error) ∧
      (askOnce transport rule question traffic).2.Sayings transport := by
  have asked := ask_saying message transport kept question
  unfold askOnce
  split
  · exact ⟨.error _, kept⟩
  next key _ =>
    split
    next outcome found =>
      obtain ⟨before, after, among, _⟩ := List.lookup_eq_some_iff.mp found
      exact ⟨.ok (kept (key, outcome) (by simp [among])), kept⟩
    · split
      next outcome later ended =>
        rw [ended] at asked
        exact ⟨asked.1, List.forall_mem_cons.mpr ⟨asked.1 outcome rfl, asked.2⟩⟩
      next fault later ended =>
        rw [ended] at asked
        exact asked

theorem checkRemote_saying (value : Value) (context : Context) :
    Ensures (checkRemote transport value rule context traffic).1 (fun outcome => Saying transport outcome.error) ∧
      (checkRemote transport value rule context traffic).2.Sayings transport := by
  unfold checkRemote
  split
  · exact ⟨.ok (.own .absent), kept⟩
  · split
    · exact ⟨.error _, kept⟩
    · split
      · exact askOnce_saying message transport kept _
      · exact ask_saying message transport kept _

end Remote

/-- Whatever the standard backend makes of a rule, it says a text or nothing, unless it quotes another party, and
keeps nothing else. -/
theorem check_saying (means : Means) {rule : Fields} (message : (Fields.get rule "message").IsMessage) (value : Value)
    (context : Context) {session : Session} (kept : session.traffic.Sayings means.transport) :
    Ensures (check means value rule context session).1 (fun outcome => Saying means.transport outcome.error) ∧
      (check means value rule context session).2.traffic.Sayings means.transport := by
  unfold check
  simp only
  split
  · exact ⟨.ok (.own .absent), kept⟩
  · exact ⟨saying_of_worded _ (checkCompare_worded message value context), kept⟩
  · exact ⟨saying_of_worded _ (checkCustom_worded message _ value context), kept⟩
  · exact ⟨saying_of_worded _ (checkCrossField_worded message _ value context), kept⟩
  · exact ⟨saying_of_worded _ (checkPlugin_worded message _ value context), kept⟩
  · exact ⟨saying_of_worded _ (checkTemporal_worded message context), kept⟩
  · exact checkRemote_saying message means.transport kept value context
  · exact ⟨saying_of_worded _ (checkStatic_worded message _ value _), kept⟩

/-- With a party that says texts, the standard backend says texts, and keeps nothing else. -/
theorem check_worded {means : Means} (worded : means.transport.Worded) {rule : Fields}
    (message : (Fields.get rule "message").IsMessage) (value : Value) (context : Context) {session : Session}
    (kept : session.traffic.Worded) : Worded (check means value rule context session).1 ∧
      (check means value rule context session).2.traffic.Worded := by
  obtain ⟨told, later⟩ := check_saying means message value context fun entry member => .own (kept entry member)
  exact ⟨fun outcome ended => (told outcome ended).isMessage worded, fun entry member => (later entry member).isMessage worded⟩

end Rule

end FormRules

import FormRules.Pass.Group
import FormRules.Proofs.Agreement

/-! Messages: texts that may be left out, and texts that are joined. What rules and groups say when they fail is a
text if all that they are given to say is. -/

namespace FormRules

namespace Value

/-- A message that may be left out. -/
inductive IsMessage : Value → Prop where
  | absent : IsMessage .null
  | text (message : String) : IsMessage (.text message)

theorem IsMessage.orElse {first second : Value} (message : first.IsMessage)
    (other : second.IsMessage) : (first.orElse second).IsMessage := by
  unfold Value.orElse
  split
  · exact message
  · exact other

theorem IsMessage.orElse_text {value : Value} (message : value.IsMessage) (fallback : String) :
    ∃ shown, value.orElse (.text fallback) = .text shown := by
  cases message with
  | absent => exact ⟨fallback, rfl⟩
  | text message =>
    unfold Value.orElse
    split
    · exact ⟨message, rfl⟩
    · exact ⟨fallback, rfl⟩

theorem IsMessage.text_of_truthy {value : Value} (message : value.IsMessage) (present : value.truthy = true) :
    ∃ shown, value = .text shown := by
  cases message with
  | absent => cases present
  | text message => exact ⟨message, rfl⟩

/-- A list of texts. -/
def IsTexts (value : Value) : Prop := ∃ texts, value = Value.texts texts

theorem allTexts_of_texts {values : List Value} (texts : ∀ value ∈ values, ∃ shown, value = .text shown)
    (index : Nat) : ∃ shown, allTexts index values = .ok shown := by
  induction values generalizing index with
  | nil => exact ⟨[], rfl⟩
  | cons value rest ih =>
    obtain ⟨first, rfl⟩ := texts value List.mem_cons_self
    obtain ⟨others, listed⟩ := ih (fun other member => texts other (List.mem_cons_of_mem _ member)) (index + 1)
    exact ⟨first :: others, by simp only [allTexts, listed, Except.map]⟩

theorem joinTexts_yields {values : List Value} (texts : ∀ value ∈ values, ∃ shown, value = .text shown) :
    Yields (joinTexts values) fun _ => True := by
  obtain ⟨shown, listed⟩ := allTexts_of_texts texts 0
  unfold joinTexts joinWith
  rw [listed]
  exact .ok trivial

end Value

theorem Outcome.reason_text {outcome : Outcome} {rule : Fields} (error : outcome.error.IsMessage)
    (message : (Fields.get rule "message").IsMessage) : ∃ shown, outcome.reason rule = .text shown := by
  obtain ⟨fallback, given⟩ := message.orElse_text "Validation failed"
  unfold reason
  rw [given]
  exact error.orElse_text fallback

namespace Pass

variable {fields : Fields}

theorem nestedReason_text (own : (Fields.get fields "groupMessage").IsMessage)
    (message : (Fields.get fields "message").IsMessage) : ∃ shown, nestedReason fields = .text shown :=
  (own.orElse message).orElse_text _

theorem groupMessage_yields (fields : Fields) {reasons : List Value}
    (texts : ∀ reason ∈ reasons, ∃ shown, reason = .text shown) : Yields (groupMessage fields reasons) fun _ => True := by
  unfold groupMessage
  simp only
  split
  · exact .ok trivial
  · exact (Value.joinTexts_yields texts).map fun _ _ => trivial

end Pass

end FormRules

import FormRules.Callback.Registry
import FormRules.Proofs.EmailAddresses

/-! What a rule that asks for a value takes for none: null, and texts of nothing but blanks. The rule searches for a
pattern of blanks between the ends of the text, where a line end may be passed over; the callback on empty values trims
the text. Outside lists and objects the two agree. -/

namespace FormRules

namespace Rule

open Pattern

/-- Whether a value is null or a text of nothing but blanks. -/
def IsBlank (value : Value) : Prop := value = .null ∨ ∃ text, value = .text text ∧ ∀ c ∈ text.toList, Text.isBlank c = true

def blankChars : CharClass := ⟨[.kind false false .blank], false, false⟩

/-- What follows the start of the text. -/
def blankRest : Pattern := .followed (.repeated .greedy 0 none (.one blankChars)) (.anchor .lastLineEnd)

theorem ofText_blankPattern :
    (Pattern.ofText blankPattern).toOption = some (.followed (.anchor .textStart) blankRest) := by
  decide +kernel

theorem blankChars_holds (c : Char) : blankChars.holds c = Text.isBlank c := by
  simp [blankChars, CharClass.holds, ClassItem.holds, CharKind.holds]

/-- A line end that is passed over at the end of the text is a blank like the others. -/
theorem found_iff_blank (text : String) : (Pattern.followed (.anchor .textStart) blankRest).found text = true ↔
    ∀ c ∈ text.toList, Text.isBlank c = true := by
  have takes : Takes (run blankRest) _ := takes_followed (takes_repeated blankChars 0) (takes_anchor .lastLineEnd)
  rw [found_iff takes]
  simp only [Span.followed, Span.chars, Span.anchor, blankChars_holds]
  constructor
  · rintro ⟨_, rest, whole, blanks, _, rfl, ⟨_, blank⟩, rfl, last⟩
    have ending : rest = [] ∨ rest = ['\n'] := by simpa [Anchor.holds] using last
    have closing : ∀ c ∈ rest, Text.isBlank c = true := by
      obtain rfl | rfl := ending
      · exact List.forall_mem_nil _
      · exact List.forall_mem_singleton.mpr rfl
    rw [whole, List.append_nil]
    exact fun c member => (List.mem_append.mp member).elim (blank c) (closing c)
  · intro blank
    exact ⟨text.toList, [], (List.append_nil _).symm, text.toList, [], (List.append_nil _).symm,
      ⟨Nat.zero_le _, blank⟩, rfl, rfl⟩

def requiredSchema : Value := .ofFields [("not", .ofFields [("anyOf", .list [
  .ofFields [typed "null"], .ofFields [typed "string", ("pattern", .text blankPattern)]])])]

/-- The one demand of the schema: a value may be none of two kinds. -/
def requiredDemand : Schema.Demand := .negation [.anyOf [[.type .null], [.type .text, .pattern (.text blankPattern)]]]

theorem requiredSchema_written : ∃ key, Json.canonical false requiredSchema = .ok key := by
  have whole : (Json.canonical false requiredSchema).toOption.isSome = true := by decide +kernel
  obtain ⟨key, written⟩ := Option.isSome_iff_exists.mp whole
  exact ⟨key, ok_of_toOption written⟩

theorem meetsAll_required (value : Value) :
    ∃ met, Schema.meetsAll value [requiredDemand] = .ok met ∧ (met = false ↔ IsBlank value) := by
  by_cases null : value = .null
  · subst null
    exact ⟨false, rfl, iff_of_true rfl (.inl rfl)⟩
  · by_cases text : ∃ text, value = .text text
    · obtain ⟨text, rfl⟩ := text
      have met : Schema.meetsAll (.text text) [requiredDemand] =
          .ok !(Pattern.followed (.anchor .textStart) blankRest).found text := by
        simp only [requiredDemand, Schema.meetsAll, Schema.meetsAny, Schema.meets, ValueType.fits,
          matchesPattern_of_ofText ofText_blankPattern]
        cases Pattern.found _ text <;> rfl
      refine ⟨_, met, ?_⟩
      rw [Bool.not_eq_false', found_iff_blank]
      simp [IsBlank]
    · have other : ∀ name, value ≠ .text name := fun name same => text ⟨name, same⟩
      have met : Schema.meetsAll value [requiredDemand] = .ok true := by
        simp only [requiredDemand, Schema.meetsAll, Schema.meetsAny, Schema.meets, null_fits null, text_fits other]
        rfl
      refine ⟨true, met, iff_of_false Bool.noConfusion ?_⟩
      rintro (same | ⟨name, same, _⟩)
      · exact null same
      · exact other name same

theorem isEmpty_iff {value : Value} (unlisted : ∀ items, value ≠ .list items) (plain : ∀ fields, value ≠ .object fields) :
    Callback.isEmpty value = true ↔ IsBlank value := by
  unfold Callback.isEmpty
  split <;> simp_all [IsBlank, Text.allBlank]

/-- Whatever was asked of a backend before, a rule that asks for a value has an outcome, and it rejects null and the
texts of nothing but blanks, and nothing else. So it accepts what is neither a list nor an object just if the callback
on empty values does. -/
theorem check_required {means : Means} {start : Session} (nothing : start.schemas.entries = []) (roomy : 1 ≤ start.schemas.limit)
    (calls : List Call) {rule : Fields} (called : RuleKind.ofValue? (Fields.get rule "type") = some .required) (value : Value)
    (context : Context) :
    ∃ outcome, (check means value rule context (start.after means calls)).1 = .ok outcome ∧
      (outcome.valid = false ↔ IsBlank value) ∧
      ((∀ items, value ≠ .list items) → (∀ fields, value ≠ .object fields) →
        ∃ callback, Registry.standard.find? (.text "notEmpty") = some callback ∧
          callback value context = .ok (.bool outcome.valid)) := by
  obtain ⟨key, written⟩ := requiredSchema_written
  have own : schema? .required rule = some requiredSchema := rfl
  have demands : Schema.ofValue requiredSchema = [requiredDemand] := rfl
  have sound := (sound_after means (Schema.Store.sound_empty nothing roomy) calls).1
  obtain ⟨met, meets, rejects⟩ := meetsAll_required value
  obtain ⟨outcome, ended, rfl⟩ :=
    check_of_meetsAll means sound (by decide) called own written context (demands ▸ meets)
  refine ⟨outcome, ended, rejects, fun unlisted plain => ⟨Callback.notEmpty, rfl, ?_⟩⟩
  have same : (!Callback.isEmpty value) = outcome.valid := by
    rw [← Bool.not_not outcome.valid, Bool.not_inj_iff, Bool.eq_iff_iff, isEmpty_iff unlisted plain, ← rejects]
    simp
  exact congrArg (fun answer => Except.ok (Value.bool answer)) same

namespace Gap

def rule : Fields := [(.text "type", .text "required"), (.text "message", .text "missing")]

def means : Means := { callbacks := { registry := .standard } }

end Gap

open Gap in
/-- A separator between lines and one between records, and a line end that closes the text. -/
theorem check_required_lines : ∃ outcome callback,
    (check means (.text "\u2028\x1e \n") rule (Context.ofData .null)
      (({} : Session).after means [.check (.text "a") rule (Context.ofData .null)])).1 = .ok outcome ∧
    outcome.valid = false ∧ Registry.standard.find? (.text "notEmpty") = some callback ∧
    callback (.text "\u2028\x1e \n") (Context.ofData .null) = .ok (.bool false) := by
  have blank : IsBlank (.text "\u2028\x1e \n") := .inr ⟨_, rfl, by simp [Text.isBlank]⟩
  obtain ⟨outcome, ended, rejects, agrees⟩ := @check_required means {} rfl (by decide)
    [.check (.text "a") rule (Context.ofData .null)] rule rfl (.text "\u2028\x1e \n") (Context.ofData .null)
  obtain ⟨callback, found, answered⟩ := agrees nofun nofun
  have rejected := rejects.mpr blank
  exact ⟨outcome, callback, ended, rejected, found, rejected ▸ answered⟩

end Rule

end FormRules

import FormRules.Proofs.PatternSpans
import FormRules.Proofs.RangeBounds

/-! What a rule on email addresses accepts: nothing, and texts with one at sign and, after it, a dot inside. The search
goes back and forth between the parts of its pattern, but it accepts just what can be parted so. -/

namespace FormRules

deriving instance DecidableEq for Pattern

namespace Rule

open Pattern

/-- A text without spaces and with one at sign that stands after something, and before a dot with something on each side. -/
def IsAddress (text : String) : Prop :=
  ' ' ∉ text.toList ∧ text.toList.count '@' = 1 ∧ ∃ name site ending,
    text.toList = name ++ '@' :: (site ++ '.' :: ending) ∧ name ≠ [] ∧ site ≠ [] ∧ ending ≠ []

/-- All characters but a space and an at sign. -/
def addressChars : CharClass := ⟨[.range 0x20 0x20, .range 0x40 0x40], true, false⟩

def word : Pattern := .repeated .greedy 1 none (.one addressChars)

def sign (c : Char) : Pattern := .one (.single false c.toNat)

/-- What follows the start of the text. -/
def addressPattern : Pattern :=
  .followed word (.followed (sign '@') (.followed word (.followed (sign '.') (.followed word (.anchor .lastLineEnd)))))

theorem ofText_emailPattern :
    (Pattern.ofText emailPattern).toOption = some (.followed (.anchor .textStart) addressPattern) := by
  decide +kernel

theorem range_holds (c mark : Char) : (ClassItem.range mark.toNat mark.toNat).holds c = true ↔ c = mark := by
  simp only [ClassItem.holds, Bool.and_eq_true, decide_eq_true_eq]
  constructor
  · intro ⟨least, most⟩
    exact Char.toNat_inj.mp (Nat.le_antisymm most least)
  · rintro rfl
    exact ⟨Nat.le_refl _, Nat.le_refl _⟩

theorem addressChars_holds (c : Char) : addressChars.holds c = true ↔ c ≠ ' ' ∧ c ≠ '@' := by
  have space := range_holds c ' '
  have at' := range_holds c '@'
  have both : addressChars.holds c =
      !((ClassItem.range ' '.toNat ' '.toNat).holds c || (ClassItem.range '@'.toNat '@'.toNat).holds c) := by
    show ([ClassItem.range 0x20 0x20, .range 0x40 0x40].any (·.holds c) != true) = _
    simp
  rw [both, Bool.not_eq_true', Bool.or_eq_false_iff, ← Bool.not_eq_true, ← Bool.not_eq_true, space, at']

theorem single_holds (mark c : Char) : (CharClass.single false mark.toNat).holds c = true ↔ c = mark := by
  rw [← range_holds c mark]
  show ([ClassItem.range mark.toNat mark.toNat].any (·.holds c) != false) = true ↔ _
  simp

theorem takes_word : Takes (run word) fun _ taken _ => taken ≠ [] ∧ ∀ c ∈ taken, c ≠ ' ' ∧ c ≠ '@' := by
  intro place next
  refine (takes_repeated addressChars 1 place next).trans ?_
  simp only [Span.chars, addressChars_holds, Nat.succ_le_iff, List.length_pos_iff]

theorem takes_sign (mark : Char) : Takes (run (sign mark)) fun _ taken _ => taken = [mark] := by
  intro place next
  refine (takes_one (.single false mark.toNat) place next).trans ?_
  simp only [single_holds, exists_eq_right]

theorem found_iff_parts (text : String) : (Pattern.followed (.anchor .textStart) addressPattern).found text = true ↔
    ∃ name site ending rest, text.toList = name ++ '@' :: (site ++ '.' :: (ending ++ rest)) ∧
      (∀ c ∈ name ++ site ++ ending, c ≠ ' ' ∧ c ≠ '@') ∧ name ≠ [] ∧ site ≠ [] ∧ ending ≠ [] ∧ (rest = [] ∨ rest = ['\n']) := by
  have takes : Takes (run addressPattern) _ := takes_followed takes_word <| takes_followed (takes_sign '@') <|
    takes_followed takes_word <| takes_followed (takes_sign '.') <| takes_followed takes_word (takes_anchor .lastLineEnd)
  have lastLine : ∀ before rest, Anchor.lastLineEnd.holds ⟨before, rest, []⟩ = true ↔ rest = [] ∨ rest = ['\n'] := by
    intro before rest
    simp [Anchor.holds]
  rw [found_iff takes]
  simp only [Span.followed, Span.anchor, lastLine]
  constructor
  · rintro ⟨_, rest, whole, name, _, rfl, ⟨named, kept⟩, _, _, rfl, rfl, site, _, rfl, ⟨sited, kept'⟩,
      _, _, rfl, rfl, ending, _, rfl, ⟨ended, kept''⟩, rfl, last⟩
    refine ⟨name, site, ending, rest, ?_, ?_, named, sited, ended, last⟩
    · simpa using whole
    · simp only [List.mem_append]
      rintro c ((member | member) | member)
      · exact kept c member
      · exact kept' c member
      · exact kept'' c member
  · rintro ⟨name, site, ending, rest, whole, kept, named, sited, ended, last⟩
    simp only [List.mem_append] at kept
    refine ⟨name ++ '@' :: (site ++ '.' :: ending), rest, ?_, name, _, rfl, ⟨named, ?_⟩, ['@'], _, rfl, rfl,
      site, _, rfl, ⟨sited, ?_⟩, ['.'], _, rfl, rfl, ending, [], ?_, ⟨ended, ?_⟩, rfl, last⟩
    · simpa using whole
    · exact fun c member => kept c (.inl (.inl member))
    · exact fun c member => kept c (.inl (.inr member))
    · exact (List.append_nil ending).symm
    · exact fun c member => kept c (.inr member)

/-- A line end that closes the text may as well be taken as the end of the address. -/
theorem found_iff_isAddress (text : String) :
    (Pattern.followed (.anchor .textStart) addressPattern).found text = true ↔ IsAddress text := by
  rw [found_iff_parts]
  constructor
  · rintro ⟨name, site, ending, rest, whole, kept, named, sited, ended, last⟩
    have bare : ∀ c ∈ rest, c ≠ ' ' ∧ c ≠ '@' := by
      rcases last with rfl | rfl <;> simp
    simp only [List.mem_append] at kept
    refine ⟨?_, ?_, name, site, ending ++ rest, whole, named, sited, by simp [ended]⟩
    · rw [whole]
      intro member
      simp only [List.mem_append, List.mem_cons] at member
      rcases member with member | member | member | member | member | member
      · exact (kept _ (.inl (.inl member))).1 rfl
      · contradiction
      · exact (kept _ (.inl (.inr member))).1 rfl
      · contradiction
      · exact (kept _ (.inr member)).1 rfl
      · exact (bare _ member).1 rfl
    · have none : ∀ {chars : List Char}, (∀ c ∈ chars, c ≠ ' ' ∧ c ≠ '@') → chars.count '@' = 0 :=
        fun other => List.count_eq_zero.mpr fun member => (other _ member).2 rfl
      have before := none fun c member => kept c (.inl (.inl member))
      have inside := none fun c member => kept c (.inl (.inr member))
      have after := none fun c member => kept c (.inr member)
      rw [whole]
      simp [List.count_append, before, inside, after, none bare]
  · rintro ⟨unspaced, once, name, site, ending, whole, named, sited, ended⟩
    rw [whole] at unspaced once
    simp only [List.mem_append, List.mem_cons, not_or] at unspaced
    simp only [List.count_append, List.count_cons] at once
    have single : name.count '@' = 0 ∧ site.count '@' = 0 ∧ ending.count '@' = 0 := by
      simp at once
      omega
    simp only [List.count_eq_zero] at single
    refine ⟨name, site, ending, [], by simpa using whole, ?_, named, sited, ended, .inl rfl⟩
    simp only [List.mem_append]
    rintro c ((member | member) | member)
    · exact ⟨fun same => unspaced.1 (same ▸ member), fun same => single.1 (same ▸ member)⟩
    · exact ⟨fun same => unspaced.2.2.1 (same ▸ member), fun same => single.2.1 (same ▸ member)⟩
    · exact ⟨fun same => unspaced.2.2.2.2 (same ▸ member), fun same => single.2.2 (same ▸ member)⟩

theorem matchesPattern_of_ofText {source : String} {pattern : Pattern}
    (read : (Pattern.ofText source).toOption = some pattern) (text : String) :
    Schema.matchesPattern (.text source) text = .ok (pattern.found text) := by
  rw [Schema.matchesPattern]
  cases known : Pattern.ofText source with
  | error cause =>
    rw [known] at read
    cases read
  | ok pattern =>
    rw [known] at read
    cases read
    rfl

theorem matchesPattern_email (text : String) : ∃ found, Schema.matchesPattern (.text emailPattern) text = .ok found ∧
    (found = true ↔ IsAddress text) :=
  ⟨_, matchesPattern_of_ofText ofText_emailPattern text, found_iff_isAddress text⟩

theorem null_fits {value : Value} (full : value ≠ .null) : ValueType.null.fits value = false := by
  unfold ValueType.fits
  split <;> simp_all

theorem text_fits {value : Value} (other : ∀ text, value ≠ .text text) : ValueType.text.fits value = false := by
  unfold ValueType.fits
  split <;> simp_all

def emailSchema : Value := .ofFields [("anyOf", .list [
  .ofFields [typed "null"], .ofFields [("const", .text "")], .ofFields [typed "string", ("pattern", .text emailPattern)]])]

/-- The one demand of the schema: a value has to be one of three kinds. -/
def emailDemand : Schema.Demand := .anyOf [
  [.type .null], [.constant (.text "")], [.type .text, .pattern (.text emailPattern)]]

theorem emailSchema_written : ∃ key, Json.canonical false emailSchema = .ok key := by
  have whole : (Json.canonical false emailSchema).toOption.isSome = true := by decide +kernel
  obtain ⟨key, written⟩ := Option.isSome_iff_exists.mp whole
  exact ⟨key, ok_of_toOption written⟩

/-- What is neither null nor a text is of none of the three kinds. -/
theorem meetsAll_email_other {value : Value} (full : value ≠ .null) (other : ∀ text, value ≠ .text text) :
    Schema.meetsAll value [emailDemand] = .ok false := by
  have unequal : value.same (.text "") = false := by
    apply Bool.eq_false_iff.mpr
    intro same
    exact other "" (Value.eq_of_same_text same)
  simp only [emailDemand, Schema.meetsAll, Schema.meetsAny, Schema.meets, null_fits full, text_fits other, unequal]
  rfl

theorem meetsAll_email (value : Value) : ∃ met, Schema.meetsAll value [emailDemand] = .ok met ∧
    (met = true ↔ value = .null ∨ value = .text "" ∨ ∃ text, value = .text text ∧ IsAddress text) := by
  by_cases null : value = .null
  · subst null
    exact ⟨true, rfl, iff_of_true rfl (.inl rfl)⟩
  · by_cases text : ∃ text, value = .text text
    · obtain ⟨text, rfl⟩ := text
      obtain ⟨found, matched, address⟩ := matchesPattern_email text
      have met : Schema.meetsAll (.text text) [emailDemand] = .ok (text == "" || found) := by
        simp only [emailDemand, Schema.meetsAll, Schema.meetsAny, Schema.meets, ValueType.fits, Value.same_text, matched]
        cases text == "" <;> cases found <;> rfl
      refine ⟨_, met, ?_⟩
      simp [address]
    · have other : ∀ name, value ≠ .text name := fun name same => text ⟨name, same⟩
      refine ⟨false, meetsAll_email_other null other, iff_of_false Bool.false_ne_true ?_⟩
      rintro (same | same | ⟨name, same, _⟩)
      · exact null same
      · exact other _ same
      · exact other _ same

/-- Whatever was asked of a backend before, a rule on email addresses has an outcome, and it accepts what is missing or
empty and the texts that are addresses, and nothing else. -/
theorem check_email {means : Means} {start : Session} (nothing : start.schemas.entries = []) (roomy : 1 ≤ start.schemas.limit)
    (calls : List Call) {rule : Fields} (called : RuleKind.ofValue? (Fields.get rule "type") = some .email) (value : Value)
    (context : Context) :
    ∃ outcome, (check means value rule context (start.after means calls)).1 = .ok outcome ∧
      (outcome.valid = true ↔ value = .null ∨ value = .text "" ∨ ∃ text, value = .text text ∧ IsAddress text) := by
  obtain ⟨key, written⟩ := emailSchema_written
  have own : schema? .email rule = some emailSchema := rfl
  have demands : Schema.ofValue emailSchema = [emailDemand] := rfl
  have sound := (sound_after means (Schema.Store.sound_empty nothing roomy) calls).1
  obtain ⟨met, meets, keeps⟩ := meetsAll_email value
  obtain ⟨outcome, ended, rfl⟩ :=
    check_of_meetsAll means sound (by decide) called own written context (demands ▸ meets)
  exact ⟨outcome, ended, keeps⟩

namespace Contact

def rule : Fields := [(.text "type", .text "email"), (.text "message", .text "unreachable")]

def means : Means := { callbacks := { registry := .standard } }

end Contact

open Contact in
/-- An address may have line ends in it, and more dots than one. -/
theorem check_email_lines : ∃ outcome,
    (check means (.text "a\nb@.c.d\n") rule (Context.ofData .null)
      (({} : Session).after means [.check (.text "a@b") rule (Context.ofData .null)])).1 = .ok outcome ∧
    outcome.valid = true := by
  have address : IsAddress "a\nb@.c.d\n" :=
    ⟨by decide +kernel, by decide +kernel, "a\nb".toList, ".c".toList, "d\n".toList, by decide +kernel,
      by decide +kernel, by decide +kernel, by decide +kernel⟩
  obtain ⟨outcome, ended, accepts⟩ := @check_email means {} rfl (by decide)
    [.check (.text "a@b") rule (Context.ofData .null)] rule rfl (.text "a\nb@.c.d\n") (Context.ofData .null)
  exact ⟨outcome, ended, accepts.mpr (.inr (.inr ⟨_, rfl, address⟩))⟩

end Rule

end FormRules

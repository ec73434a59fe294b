import FormRules.Context.Family
import FormRules.Proofs.Agreement
import FormRules.Proofs.DigitTexts

/-! Where the segments of a path lead: by name into objects, by position into lists. A path can only be followed or not,
but for segments that are all digit characters and yet no number that is read: at a list they break the lookup off. -/

namespace FormRules

namespace Path

/-- The position that a segment denotes, in decimal digits of any script. -/
def Denotes (segment : String) (position : Nat) : Prop :=
  segment ≠ "" ∧ ∃ values, segment.toList.map Text.decimalValue? = values.map some ∧ Number.ofDigits values = position

/-- A segment of digit characters that is not read as a number: one of them is no decimal digit, or they are too many. -/
def IsUnreadable (segment : String) : Prop :=
  Text.allDigits segment = true ∧
    ((∃ c ∈ segment.toList, Text.isDecimal c = false) ∨ Json.digitLimit < segment.length)

inductive Steps : Value → String → Value → Prop
  | member {fields segment inner} : Keyed.find? fields (.text segment) = some inner → Steps (.object fields) segment inner
  | item {items : List Value} {segment position inner} :
    Denotes segment position → items[position]? = some inner → Steps (.list items) segment inner

/-- Whether segments lead from one value to another. -/
inductive Leads : Value → List String → Value → Prop
  | here {value} : Leads value [] value
  | step {value segment inner more target} :
    Steps value segment inner → Leads inner more target → Leads value (segment :: more) target

/-- Whether a list and an unreadable segment for it are met on the way. -/
inductive Breaks : Value → List String → Prop
  | here {items segment more} : IsUnreadable segment → Breaks (.list items) (segment :: more)
  | later {value segment inner more} : Steps value segment inner → Breaks inner more → Breaks value (segment :: more)

theorem Denotes.allDigits {segment : String} {position : Nat} (denotes : Denotes segment position) :
    Text.allDigits segment = true := by
  obtain ⟨filled, values, read, _⟩ := denotes
  simp only [Text.allDigits, Bool.and_eq_true, Bool.not_eq_true', List.all_eq_true]
  refine ⟨by simpa using filled, ?_⟩
  intro c member
  rw [Text.isDigit, Text.isDecimal_of_read read c member, Bool.true_or]

theorem denotes_iff {segment : String} {values : List Nat} (filled : segment ≠ "")
    (read : segment.toList.map Text.decimalValue? = values.map some) (position : Nat) :
    Denotes segment position ↔ Number.ofDigits values = position := by
  constructor
  · rintro ⟨_, others, read', rfl⟩
    have same : values = others := List.map_injective_iff.mpr (fun _ _ => Option.some.inj) (read.symm.trans read')
    rw [same]
  · intro same
    exact ⟨filled, values, read, same⟩

theorem position?_cases (segment : String) :
    (IsUnreadable segment ∧ ∃ cause, position? segment = .error (.value cause)) ∨
      (¬IsUnreadable segment ∧ ∃ found, position? segment = .ok found ∧
        ∀ position, found = some position ↔ Denotes segment position) := by
  unfold position?
  cases digits : Text.allDigits segment with
  | false =>
    refine .inr ⟨?_, none, rfl, ?_⟩
    · intro unreadable
      exact absurd (digits.symm.trans unreadable.1) (by decide)
    · intro position
      refine iff_of_false nofun ?_
      intro denotes
      exact absurd (digits.symm.trans denotes.allDigits) (by decide)
  | true =>
    rcases Number.int?_of_digits digits with ⟨values, read, whole⟩ | ⟨mark, none⟩
    · have filled : segment ≠ "" := by
        rintro rfl
        contradiction
      rw [if_pos rfl, whole]
      dsimp only
      by_cases long : Json.digitLimit < segment.length
      · exact .inl ⟨⟨digits, .inr long⟩, _, if_pos long⟩
      · refine .inr ⟨?_, _, if_neg long, ?_⟩
        · rintro ⟨_, ⟨c, member, other⟩ | long'⟩
          · exact absurd (other.symm.trans (Text.isDecimal_of_read read c member)) (by decide)
          · exact long long'
        · intro position
          rw [denotes_iff filled read, Option.some.injEq, Int.toNat_natCast]
    · rw [if_pos rfl, none]
      exact .inl ⟨⟨digits, .inl mark⟩, _, rfl⟩

theorem step?_cases (value : Value) (segment : String) :
    ((∃ items, value = .list items) ∧ IsUnreadable segment ∧ ∃ cause, step? value segment = .error (.value cause)) ∨
      (¬((∃ items, value = .list items) ∧ IsUnreadable segment) ∧
        ∃ found, step? value segment = .ok found ∧ ∀ inner, found = some inner ↔ Steps value segment inner) := by
  cases value with
  | object fields =>
    refine .inr ⟨nofun, _, rfl, fun inner => ⟨.member, ?_⟩⟩
    rintro ⟨found⟩
    exact found
  | list items =>
    unfold step?
    rcases position?_cases segment with ⟨unreadable, cause, ended⟩ | ⟨readable, found, ended, denotes⟩
    · exact .inl ⟨⟨items, rfl⟩, unreadable, cause, by rw [ended]; rfl⟩
    · refine .inr ⟨fun ⟨_, unreadable⟩ => readable unreadable, found.bind (items[·]?), by rw [ended]; rfl, ?_⟩
      intro inner
      rw [Option.bind_eq_some_iff]
      constructor
      · rintro ⟨position, same, held⟩
        exact .item ((denotes position).mp same) held
      · intro step
        cases step with
        | item denotes' held => exact ⟨_, (denotes _).mpr denotes', held⟩
  | scalar | handle => exact .inr ⟨nofun, none, rfl, fun inner => ⟨nofun, nofun⟩⟩

theorem walk?_cases (value : Value) (segments : List String) :
    (Breaks value segments ∧ ∃ cause, walk? value segments = .error (.value cause)) ∨
      (¬Breaks value segments ∧
        ∃ found, walk? value segments = .ok found ∧ ∀ target, found = some target ↔ Leads value segments target) := by
  induction segments generalizing value with
  | nil =>
    refine .inr ⟨nofun, some value, rfl, fun target => ⟨?_, ?_⟩⟩
    · rintro ⟨⟩
      exact .here
    · rintro ⟨⟩
      rfl
  | cons segment more ih =>
    rw [walk?]
    rcases step?_cases value segment with ⟨⟨items, rfl⟩, unreadable, cause, ended⟩ | ⟨readable, found, ended, steps⟩
    · exact .inl ⟨.here unreadable, cause, by rw [ended]; rfl⟩
    · rw [ended]
      cases found with
      | none =>
        have stuck : ∀ inner, ¬Steps value segment inner := fun inner step => nomatch (steps inner).mpr step
        refine .inr ⟨?_, none, rfl, fun target => ⟨nofun, ?_⟩⟩
        · rintro (⟨unreadable⟩ | ⟨step, _⟩)
          · exact readable ⟨⟨_, rfl⟩, unreadable⟩
          · exact stuck _ step
        · rintro (_ | ⟨step, _⟩)
          exact absurd step (stuck _)
      | some inner =>
        have only : ∀ other, Steps value segment other → other = inner :=
          fun other step => (Option.some.inj ((steps other).mpr step)).symm
        rcases ih inner with ⟨breaks, cause, broken⟩ | ⟨whole, target?, ended', leads⟩
        · exact .inl ⟨.later ((steps inner).mp rfl) breaks, cause, broken⟩
        · refine .inr ⟨?_, target?, ended', ?_⟩
          · rintro (⟨unreadable⟩ | ⟨step, breaks⟩)
            · exact readable ⟨⟨_, rfl⟩, unreadable⟩
            · exact whole (only _ step ▸ breaks)
          · intro target
            rw [leads]
            constructor
            · exact .step ((steps inner).mp rfl)
            · rintro (_ | ⟨step, leads'⟩)
              exact only _ step ▸ leads'

end Path

namespace Family

theorem has_eq (family : Family) (member : Member) (path : String) :
    family.has member (.text path) = (Path.find? (family.data member) path).map (·.isSome) := by
  show (do return (← Path.find? (family.data member) path).isSome) = _
  cases Path.find? (family.data member) path <;> rfl

theorem get_eq (family : Family) (member : Member) (path : String) (absent : Value) :
    family.get member (.text path) absent = (Path.find? (family.data member) path).map (·.getD absent) := by
  show (do return (← Path.find? (family.data member) path).getD absent) = _
  cases Path.find? (family.data member) path <;> rfl

/-- Looking up a path ends as the path can be followed, with the value that it leads to or with the other one that was
asked for. Only a path that breaks off has neither: it raises a fault of values, whatever was asked for. -/
theorem lookup_follows (family : Family) (member : Member) (path : String) :
    (Path.Breaks (family.data member) (Path.segments path) ∧ ∃ cause,
      family.has member (.text path) = .error (.value cause) ∧
        ∀ absent, family.get member (.text path) absent = .error (.value cause)) ∨
    (¬Path.Breaks (family.data member) (Path.segments path) ∧ ∃ found : Option Value,
      (∀ value, found = some value ↔ Path.Leads (family.data member) (Path.segments path) value) ∧
        family.has member (.text path) = .ok found.isSome ∧
          ∀ absent, family.get member (.text path) absent = .ok (found.getD absent)) := by
  rw [has_eq]
  simp only [get_eq]
  unfold Path.find?
  rcases Path.walk?_cases (family.data member) (Path.segments path) with ⟨breaks, cause, ended⟩ | ⟨whole, found, ended, leads⟩
  · refine .inl ⟨breaks, cause, ?_⟩
    rw [ended]
    exact ⟨rfl, fun _ => rfl⟩
  · refine .inr ⟨whole, found, leads, ?_⟩
    rw [ended]
    exact ⟨rfl, fun _ => rfl⟩

/-- A single context over a document. -/
def single (data : Value) : Family := ⟨{}, .earliest, [data], [.null], [⟨0, 0, [], .null, .null⟩]⟩

def first : Member := ⟨0, 0, [], .null, .null⟩

def untagged : Value := .object [(.text "tags", .list [])]

/-- A superscript two is called a digit, but it is part of no number: asking whether the tag is there raises a fault,
where the path just leads nowhere. -/
theorem lookup_of_mark : (single untagged).has first (.text "tags.²") = .error (.value (.notWhole "²")) ∧
    ¬∃ value, Path.Leads untagged (Path.segments "tags.²") value := by
  have segments : Path.segments "tags.²" = ["tags", "²"] := by decide +kernel
  constructor
  · rfl
  · rw [segments]
    rintro ⟨value, _ | ⟨⟨found⟩, leads⟩⟩
    cases found
    cases leads with
    | step step _ =>
      cases step with
      | item _ held => contradiction

end Family

end FormRules

import FormRules.Proofs.SchemaSharing
import FormRules.Proofs.ScoringRange

/-! What a rule of a range accepts: the numbers from one limit to the other, given as such or as texts, and also what
reads as a number but is none, since it is neither below nor above any limit. -/

namespace FormRules

namespace Number

theorem extent?_eq_none {n : Number} : n.extent? = none ↔ n.isNaN = true := by
  cases n with
  | int => exact iff_of_false nofun nofun
  | float x =>
    cases x with
    | nan => exact iff_of_true rfl rfl
    | infinite negative => cases negative <;> exact iff_of_false nofun nofun
    | finite => exact iff_of_false nofun nofun

theorem Extent.less_eq_false (first second : Extent) :
    first.less second = false ↔ second.less first = true ∨ second = first := by
  constructor
  · intro other
    obtain before | same | after := less_total first second
    · exact absurd (before.symm.trans other) (by decide)
    · exact .inr same.symm
    · exact .inl after
  · rintro (before | rfl)
    · refine Bool.eq_false_iff.mpr fun after => ?_
      exact absurd ((less_trans before after).symm.trans (less_irrefl second)) (by decide)
    · exact less_irrefl second

/-- Of two numbers the first is not less if the second reaches at most up to it, or if one of them has no place. -/
theorem less_eq_false (first second : Number) : first.less second = false ↔
    first.isNaN = true ∨ second.isNaN = true ∨ Comparison.lessEqual.numbers second first = true := by
  rw [← extent?_eq_none, ← extent?_eq_none]
  cases here : first.extent? <;> cases there : second.extent? <;>
    simp [less, here, there, Comparison.numbers, Comparison.ofOrder, equal, Extent.less_eq_false]

end Number

namespace Rule

open Schema

/-- The number that a value stands for: a number for itself, a text for the one that it reads as. -/
inductive Denotes : Value → Number → Prop
  | number (n : Number) : Denotes (.number n) n
  | text {s : String} {x : Number.Binary64} : Number.float? s = some x → Denotes (.text s) (.float x)

/-- A limit is a number with a place among all numbers, or it is missing. -/
def IsLimit (limit : Value) : Prop := limit = .null ∨ ∃ n : Number, limit = .number n ∧ n.isNaN = false

/-- Whether a number is from one limit up to the other, each of which may be missing. -/
def Between (low high : Value) (n : Number) : Prop :=
  (∀ limit, low = .number limit → Comparison.lessEqual.numbers limit n = true) ∧
    ∀ limit, high = .number limit → Comparison.lessEqual.numbers n limit = true

theorem asNumber_eq_number {value : Value} {n : Number} : asNumber value = .number n ↔ Denotes value n := by
  constructor
  · intro reads
    unfold asNumber at reads
    split at reads
    next s =>
      cases shown : Number.float? s with
      | none =>
        rw [shown] at reads
        cases reads
      | some x =>
        rw [shown] at reads
        cases reads
        exact .text shown
    next =>
      rw [reads]
      exact .number n
  · intro denotes
    cases denotes with
    | number n => rfl
    | text shown => simp [asNumber, shown]

/-- The demand that a limit makes, if there is one. -/
def demandOf (keyword : Keyword) (limit : Value) : List Demand := if limit.isNull then [] else [.bound keyword limit]

theorem schema?_range {rule : Fields} (low : IsLimit (Fields.get rule "min")) (high : IsLimit (Fields.get rule "max")) :
    ∃ schema key, schema? .range rule = some schema ∧ Json.canonical false schema = .ok key ∧
      ofValue schema = .type .number ::
        (demandOf .minimum (Fields.get rule "min") ++ demandOf .maximum (Fields.get rule "max")) := by
  unfold schema? bounds
  obtain low | ⟨lo, low, _⟩ := low <;> obtain high | ⟨hi, high, _⟩ := high <;> rw [low, high] <;>
    exact ⟨_, _, rfl, rfl, rfl⟩

theorem meetsAll_append (value : Value) (demands more : List Demand) : meetsAll value (demands ++ more) =
    meetsAll value demands >>= fun first => (meetsAll value more).map (first && ·) := by
  induction demands with
  | nil =>
    show meetsAll value more = (meetsAll value more).map (true && ·)
    cases meetsAll value more <;> rfl
  | cons demand demands ih =>
    rw [List.cons_append, meetsAll, meetsAll, ih]
    cases meets value demand with
    | error fault => rfl
    | ok met =>
      cases meetsAll value demands with
      | error fault => rfl
      | ok others =>
        cases meetsAll value more with
        | error fault => rfl
        | ok last => exact congrArg Except.ok (Bool.and_assoc ..).symm

section Limits

variable {limit : Value}

/-- A number keeps to a lower limit unless it is less; what is no number is not. -/
theorem meetsAll_minimum (known : IsLimit limit) (n : Number) : ∃ met, meetsAll (.number n) (demandOf .minimum limit) = .ok met ∧
    (met = true ↔ n.isNaN = true ∨ ∀ low, limit = .number low → Comparison.lessEqual.numbers low n = true) := by
  obtain rfl | ⟨low, rfl, place⟩ := known
  · exact ⟨true, rfl, by simp⟩
  · have met : meetsAll (.number n) (demandOf .minimum (.number low)) = .ok (!n.less low) := by
      show meetsAll _ [.bound .minimum (.number low)] = _
      simp [meetsAll, meets, within, Value.compare_number]
      rfl
    refine ⟨_, met, ?_⟩
    rw [Bool.not_eq_true', Number.less_eq_false]
    simp [place]

theorem meetsAll_maximum (known : IsLimit limit) (n : Number) : ∃ met, meetsAll (.number n) (demandOf .maximum limit) = .ok met ∧
    (met = true ↔ n.isNaN = true ∨ ∀ high, limit = .number high → Comparison.lessEqual.numbers n high = true) := by
  obtain rfl | ⟨high, rfl, place⟩ := known
  · exact ⟨true, rfl, by simp⟩
  · have met : meetsAll (.number n) (demandOf .maximum (.number high)) = .ok (!high.less n) := by
      show meetsAll _ [.bound .maximum (.number high)] = _
      simp [meetsAll, meets, within, Value.compare_number]
      rfl
    refine ⟨_, met, ?_⟩
    rw [Bool.not_eq_true', Number.less_eq_false]
    simp [place]

/-- Limits have nothing to say of what is given as no number. -/
theorem meetsAll_of_not_number {value : Value} (other : ∀ n, value ≠ .number n) {keyword : Keyword}
    (among : keyword ∈ [Keyword.minimum, .maximum]) (limit : Value) : meetsAll value (demandOf keyword limit) = .ok true := by
  have silent : within keyword limit value = .ok true := by
    simp only [List.mem_cons, List.not_mem_nil, or_false] at among
    cases value with
    | scalar s =>
      cases s with
      | number n => exact absurd rfl (other n)
      | _ => obtain rfl | rfl := among <;> rfl
    | _ => obtain rfl | rfl := among <;> rfl
  unfold demandOf
  split
  · rfl
  · simp only [meetsAll, meets, silent]
    rfl

end Limits

/-- A value meets the demands of a range if it is a number between the limits, or one that is none. -/
theorem meetsAll_range {low high : Value} (lower : IsLimit low) (upper : IsLimit high) (value : Value) :
    ∃ met, meetsAll value (.type .number :: (demandOf .minimum low ++ demandOf .maximum high)) = .ok met ∧
      (met = true ↔ ∃ n, value = .number n ∧ (n.isNaN = true ∨ Between low high n)) := by
  rw [meetsAll, meetsAll_append]
  by_cases number : ∃ n, value = .number n
  · obtain ⟨n, rfl⟩ := number
    obtain ⟨first, met, keeps⟩ := meetsAll_minimum lower n
    obtain ⟨last, met', keeps'⟩ := meetsAll_maximum upper n
    refine ⟨first && last, by rw [met, met']; rfl, ?_⟩
    rw [Bool.and_eq_true, keeps, keeps', ← or_and_left]
    simp [Between]
  · have other : ∀ n, value ≠ .number n := fun n same => number ⟨n, same⟩
    rw [meetsAll_of_not_number other (by decide), meetsAll_of_not_number other (by decide)]
    have misfit : ValueType.number.fits value = false := by
      cases value with
      | scalar s =>
        cases s with
        | number n => exact absurd rfl (other n)
        | _ => rfl
      | _ => rfl
    refine ⟨false, by rw [meets, misfit]; rfl, ?_⟩
    simp [other]

/-- A rule on the value alone accepts what meets its own schema, whatever was asked of the backend before. -/
theorem check_alike_of_static (means : Means) {session : Session} (sound : session.schemas.Sound) {kind : RuleKind} {rule : Fields}
    (among : kind ∈ [RuleKind.required, .email, .numeric, .stringLength, .arrayLength, .range, .pattern])
    (called : RuleKind.ofValue? (Fields.get rule "type") = some kind) {schema : Value} (own : schema? kind rule = some schema)
    {key : String} (written : Json.canonical false schema = .ok key) (value : Value) (context : Context) :
    Alike ((check means value rule context session).1.map (·.valid)) (meetsAll (subject kind value) (ofValue schema)) := by
  rw [check_of_static among called, own, ← checkBySchema_valid kind rule]
  simp only
  cases found : (session.schemas.fetch schema).1 with
  | error fault =>
    rw [Store.fetch_error_iff sound.roomy, written] at found
    cases found
  | ok entry =>
    obtain ⟨named, held, _⟩ := sound.entry_of_fetch found
    exact checkBySchema_alike own (Json.sameDocument_of_canonical named held) value

/-- Where the demands of its own schema can all be looked at, a rule on the value alone has an outcome. -/
theorem check_of_meetsAll (means : Means) {session : Session} (sound : session.schemas.Sound) {kind : RuleKind} {rule : Fields}
    (among : kind ∈ [RuleKind.required, .email, .numeric, .stringLength, .arrayLength, .range, .pattern])
    (called : RuleKind.ofValue? (Fields.get rule "type") = some kind) {schema : Value} (own : schema? kind rule = some schema)
    {key : String} (written : Json.canonical false schema = .ok key) {value : Value} (context : Context) {met : Bool}
    (meets : meetsAll (subject kind value) (ofValue schema) = .ok met) :
    ∃ outcome, (check means value rule context session).1 = .ok outcome ∧ outcome.valid = met := by
  have alike := check_alike_of_static means sound among called own written value context
  rw [meets] at alike
  cases ended : (check means value rule context session).1 with
  | error fault =>
    rw [ended] at alike
    cases alike
  | ok outcome =>
    rw [ended] at alike
    exact ⟨outcome, rfl, Option.some.inj alike⟩

/-- Whatever was asked of a backend before, a rule of a range has an outcome, and it accepts the values that stand for
numbers between its limits, and those that stand for what is no number. -/
theorem check_range {means : Means} {start : Session} (nothing : start.schemas.entries = []) (roomy : 1 ≤ start.schemas.limit)
    (calls : List Call) {rule : Fields} (called : RuleKind.ofValue? (Fields.get rule "type") = some .range)
    (low : IsLimit (Fields.get rule "min")) (high : IsLimit (Fields.get rule "max")) (value : Value) (context : Context) :
    ∃ outcome, (check means value rule context (start.after means calls)).1 = .ok outcome ∧
      (outcome.valid = true ↔ ∃ n, Denotes value n ∧
        (n.isNaN = true ∨ Between (Fields.get rule "min") (Fields.get rule "max") n)) := by
  obtain ⟨schema, key, own, written, demands⟩ := schema?_range low high
  have sound := (sound_after means (Store.sound_empty nothing roomy) calls).1
  obtain ⟨met, meets, keeps⟩ := meetsAll_range low high (asNumber value)
  have alike := check_alike_of_static means sound (by decide) called own written value context
  rw [demands, show subject .range value = asNumber value from rfl, meets] at alike
  cases ended : (check means value rule context (start.after means calls)).1 with
  | error fault =>
    rw [ended] at alike
    cases alike
  | ok outcome =>
    rw [ended] at alike
    obtain rfl : outcome.valid = met := Option.some.inj alike
    refine ⟨outcome, rfl, ?_⟩
    rw [keeps]
    simp only [asNumber_eq_number]

namespace Grown

def rule : Fields := [(.text "type", .text "range"), (.text "min", .int 18), (.text "max", .int 65)]

def means : Means := { callbacks := { registry := .standard } }

def context : Context := Context.ofData (.object [])

end Grown

open Grown in
theorem check_range_grown : ∃ outcome,
    (check means (.text " 3e1 ") rule context (({} : Session).after means [.check .null rule context])).1 = .ok outcome ∧
      outcome.valid = true := by
  have age : Number.float? " 3e1 " = some (.ofRatio false 30 1) := by decide +kernel
  have between : Between (.int 18) (.int 65) (.float (.ofRatio false 30 1)) := by
    constructor <;> rintro limit ⟨⟩ <;> decide +kernel
  obtain ⟨outcome, ended, accepts⟩ := @check_range means {} rfl (by decide) [.check .null rule context]
    rule rfl (.inr ⟨.int 18, rfl, rfl⟩) (.inr ⟨.int 65, rfl, rfl⟩) (.text " 3e1 ") context
  exact ⟨outcome, ended, accepts.mpr ⟨_, .text age, .inr between⟩⟩

open Grown in
/-- The text "nan" stands for no number between any limits, but it is accepted as an age. -/
theorem range_accepts_nan : ((check means (.text "nan") rule context {}).1.map (·.valid)).toOption = some true ∧
    ¬∃ n : Number, Denotes (.text "nan") n ∧ n.isNaN = false ∧
      Between (Fields.get rule "min") (Fields.get rule "max") n := by
  refine ⟨by decide +kernel, ?_⟩
  have none : Number.float? "nan" = some .nan := by decide +kernel
  rintro ⟨n, denotes, known, _⟩
  cases denotes with
  | text shown =>
    cases Option.some.inj (none.symm.trans shown)
    cases known

end Rule

end FormRules

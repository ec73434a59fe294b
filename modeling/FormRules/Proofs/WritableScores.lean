import FormRules.Form.Check
import FormRules.Proofs.AcceptedForms
import FormRules.Proofs.WritableValues
import FormRules.Scoring.Rollup
import FormRules.Scoring.Subtype

/-! Scores and their sums can be written if answers and rules can be. Of a sum this takes categories that are texts,
as they are in a form whose structure has been checked. -/

namespace FormRules

namespace Scoring

variable {rule : Fields} {answer : Value}

section Parts

theorem setting_isWritable (writable : rule.Writable (·.isWritable = true)) (name : String) {absent : Value}
    (plain : absent.isWritable = true) : (setting rule name absent).isWritable = true := by
  unfold setting
  cases found : Keyed.find? rule (.text name) with
  | none => exact plain
  | some value => exact writable.of_find? found

theorem messageOr_isWritable (writable : rule.Writable (·.isWritable = true)) (own : String) :
    (messageOr rule own).isWritable = true :=
  Value.isWritable_orElse (Fields.get_isWritable writable "message") rfl

theorem lost_isWritable (stakes : Stakes) : Ensures stakes.lost (·.isWritable = true) := by
  unfold Stakes.lost
  refine Ensures.any.bind fun positive _ => ?_
  split
  · exact Value.neg_isWritable stakes.penalty
  · exact .ok rfl

theorem roundHalfUp_isWritable (value : Value) (digits : Int) : Ensures (roundHalfUp value digits) (·.isWritable = true) := by
  unfold roundHalfUp
  refine Ensures.any.bind fun scaled _ => Ensures.any.bind fun shifted _ => ?_
  split
  · exact Ensures.any.bind fun whole _ => Value.onNumbers_isWritable _ _ _ _
  · exact Value.onNumbers_isWritable _ _ _ _

theorem partialPoints_isWritable (stakes : Stakes) (right wrong total : Nat) :
    Ensures (partialPoints stakes right wrong total) (·.isWritable = true) := by
  unfold partialPoints
  refine Ensures.any.bind fun _ _ => Ensures.any.bind fun gained _ => ?_
  refine Ensures.any.bind fun _ _ => Ensures.any.bind fun lost _ => ?_
  refine Ensures.bind (Value.onNumbers_isWritable _ _ _ _) fun earned writable => ?_
  unfold atLeastZero
  refine Ensures.any.bind fun positive _ => ?_
  split
  · exact .ok writable
  · exact .ok rfl

theorem creditFor_isWritable {stakes : Stakes} (points : stakes.points.isWritable = true) (found total : Nat) :
    Ensures (creditFor stakes found total) (·.isWritable = true) := by
  unfold creditFor
  simp only
  split
  · exact .ok points
  · split
    · exact Value.mul_isWritable points _
    · exact Value.mul_isWritable points _

theorem credit_isWritable {stakes : Stakes} (points : stakes.points.isWritable = true) (text : String) (optional : Value) :
    Ensures (credit stakes text optional) fun earned => earned.1.isWritable = true ∧ earned.2.isWritable = true := by
  unfold credit
  refine Ensures.any.bind fun items _ => Ensures.any.bind fun found _ => ?_
  refine (creditFor_isWritable points _ _).bind fun earned writable => ?_
  split
  · exact Ensures.any.bind fun hints _ => .ok ⟨writable, rfl⟩
  · exact .ok ⟨writable, rfl⟩

end Parts

/-- A score all of whose parts can be written. -/
structure Score.Writable (score : Score) : Prop where
  field : score.field.isWritable = true
  points : score.points.isWritable = true
  penalty : score.penalty.isWritable = true
  earned : score.earned.isWritable = true
  message : score.message.isWritable = true
  answer : score.answer.isWritable = true
  expected : score.expected.isWritable = true

theorem Score.Writable.toValue {score : Score} (writable : score.Writable) : score.toValue.isWritable = true := by
  unfold Score.toValue
  simp only [Value.isWritable_ofFields, List.all_cons, List.all_nil, Bool.and_eq_true]
  exact ⟨writable.field, rfl, writable.points, writable.penalty, writable.earned, writable.message, writable.answer,
    writable.expected, trivial⟩

section Ways

variable (writable : rule.Writable (·.isWritable = true)) (given : answer.isWritable = true)

include writable

theorem points_isWritable : (Stakes.ofRule rule).points.isWritable = true := setting_isWritable writable "points" rfl

include given

/-- What a rule says of an answer can be written if what is earned, said and expected can be. -/
theorem score_writable {correct : Bool} {earned message expected : Value} (gained : earned.isWritable = true)
    (said : message.isWritable = true) (right : expected.isWritable = true) :
    Score.Writable ⟨.null, correct, (Stakes.ofRule rule).points, (Stakes.ofRule rule).penalty, earned, message, answer,
      expected⟩ :=
  ⟨rfl, points_isWritable writable, setting_isWritable writable "penalty" rfl, gained, said, given, right⟩

theorem rounded_writable {correct : Bool} {message expected : Value} (said : message.isWritable = true)
    (right : expected.isWritable = true) (points : Value) :
    Ensures (do
      return (⟨.null, correct, (Stakes.ofRule rule).points, (Stakes.ofRule rule).penalty, ← roundHalfUp points 2, message,
        answer, expected⟩ : Score)) Score.Writable :=
  (roundHalfUp_isWritable points 2).bind fun _ gained => .ok (score_writable writable given gained said right)

theorem exact_writable : Ensures (exact answer rule) Score.Writable := by
  have expected := Fields.get_isWritable writable "correctAnswer"
  unfold exact
  refine Ensures.any.bind fun correct _ => ?_
  simp only
  split
  · exact .ok (score_writable writable given (points_isWritable writable) rfl expected)
  · exact (lost_isWritable _).bind fun earned gained =>
      .ok (score_writable writable given gained (messageOr_isWritable writable _) expected)

theorem choices_writable : Ensures (choices answer rule) Score.Writable := by
  have expected := Fields.get_isWritable writable "correctAnswer"
  unfold choices
  simp only
  split
  next right _ =>
    refine Ensures.any.bind fun chosen _ => Ensures.any.bind fun wanted _ => ?_
    split
    · exact rounded_writable writable given rfl expected _
    split
    · exact (partialPoints_isWritable _ _ _ _).bind fun earned _ => rounded_writable writable given rfl expected earned
    · exact (lost_isWritable _).bind fun earned _ =>
        rounded_writable writable given (messageOr_isWritable writable _) expected earned
  · exact .ok (score_writable writable given rfl rfl expected)

theorem numeric_writable : Ensures (numeric answer rule) Score.Writable := by
  have expected := Fields.get_isWritable writable "correctAnswer"
  unfold numeric
  refine Ensures.any.bind fun given? _ => Ensures.any.bind fun mark? _ => ?_
  split
  · refine Ensures.any.bind fun close _ => ?_
    split
    · exact .ok (score_writable writable given (points_isWritable writable) rfl expected)
    · refine (lost_isWritable _).bind fun earned gained => ?_
      unfold offMark
      refine Ensures.bind (p := (·.isWritable = true)) ?_ fun message said => ?_
      · exact Ensures.any.bind fun positive _ => .ok (messageOr_isWritable writable _)
      · exact .ok (score_writable writable given gained said expected)
  · exact .ok (score_writable writable given rfl rfl expected)

theorem keywords_writable : Ensures (keywords answer rule) Score.Writable := by
  have expected : ((Fields.get rule "keywords").orElse
      (.ofFields [("required", .list []), ("optional", .list [])])).isWritable = true :=
    Value.isWritable_orElse (Fields.get_isWritable writable "keywords") rfl
  have points := points_isWritable writable
  unfold keywords
  refine Ensures.any.bind fun required _ => Ensures.any.bind fun optional _ => ?_
  refine (lost_isWritable _).bind fun lost taken => Ensures.any.bind fun short _ => ?_
  split
  · exact .ok (score_writable writable given taken (messageOr_isWritable writable _) expected)
  refine Ensures.any.bind fun items _ => Ensures.any.bind fun missing _ => ?_
  split
  · exact Ensures.any.bind fun names _ =>
      .ok (score_writable writable given taken (messageOr_isWritable writable _) expected)
  split
  · exact (credit_isWritable points _ optional).bind fun earned both => rounded_writable writable given both.2 expected _
  · exact rounded_writable writable given rfl expected _

theorem score?_writable (subtype : Subtype) :
    Ensures (score? subtype answer rule) fun score? => ∀ score ∈ score?, score.Writable := by
  have some {score : Score} (holds : score.Writable) : ∀ other ∈ Option.some score, other.Writable :=
    fun other same => Option.some.inj same ▸ holds
  cases subtype with
  | exact => exact (exact_writable writable given).map fun _ => some
  | choices => exact (choices_writable writable given).map fun _ => some
  | numeric => exact (numeric_writable writable given).map fun _ => some
  | keywords => exact (keywords_writable writable given).map fun _ => some
  | custom => exact .ok nofun

end Ways

/-! Sums of scores. -/

/-- A category all of whose parts can be written. -/
structure Category.Writable (category : Category) : Prop where
  score : category.score.isWritable = true
  most : category.most.isWritable = true
  percentage : category.percentage.isWritable = true

/-- Sums all of whose parts can be written. -/
structure Sums.Writable (sums : Sums) : Prop where
  total : sums.total.isWritable = true
  most : sums.most.isWritable = true
  breakdown : ∀ score ∈ sums.breakdown, score.Writable
  categories : sums.categories.Writable Category.Writable

/-- A sum of scores all of whose parts can be written. -/
structure Rollup.Writable (rollup : Rollup) : Prop where
  total : rollup.total.isWritable = true
  most : rollup.most.isWritable = true
  percentage : rollup.percentage.isWritable = true
  evaluation : rollup.evaluation.isWritable = true
  message : rollup.message.isWritable = true
  breakdown : ∀ score ∈ rollup.breakdown, score.Writable
  categories : rollup.categories.Writable Category.Writable

theorem Category.Writable.toValue {category : Category} (writable : category.Writable) :
    category.toValue.isWritable = true := by
  unfold Category.toValue
  simp only [Value.isWritable_ofFields, List.all_cons, List.all_nil, Bool.and_eq_true]
  exact ⟨writable.score, writable.most, writable.percentage, trivial⟩

theorem Rollup.Writable.toValue {rollup : Rollup} (writable : rollup.Writable) : rollup.toValue.isWritable = true := by
  unfold Rollup.toValue
  simp only [Value.isWritable_ofFields, List.all_cons, List.all_nil, Bool.and_eq_true]
  refine ⟨writable.total, writable.most, writable.percentage, writable.evaluation, writable.message, ?_, ?_, trivial⟩
  · exact Value.isWritable_list_map.mpr fun score member => (writable.breakdown score member).toValue
  · exact Value.isWritable_object_map (writable.categories.weaken fun _ => Category.Writable.toValue)

section Sums

variable {sums : Sums} (writable : sums.Writable)

include writable

/-- A score goes under a category that is a text, whatever it is a score of. -/
theorem Sums.add_writable {score : Score} (other : score.Writable) {key? : Except Fault Scalar}
    (named : Ensures key? (Json.isPlainScalar · = true)) : Ensures (sums.add score key?) Sums.Writable := by
  unfold Sums.add
  refine (Value.add_isWritable writable.total other.earned _).bind fun total first => ?_
  refine (Value.add_isWritable writable.most other.points _).bind fun most second => ?_
  refine named.bind fun key plain => ?_
  have before : ((Keyed.find? sums.categories key).getD {}).Writable := by
    cases found : Keyed.find? sums.categories key with
    | none => exact ⟨rfl, rfl, rfl⟩
    | some category => exact writable.categories.of_find? found
  refine (Value.add_isWritable before.score other.earned _).bind fun reached third => ?_
  refine (Value.add_isWritable before.most other.points _).bind fun reachable fourth => .ok ?_
  exact ⟨first, second, List.forall_mem_append.mpr ⟨writable.breakdown, List.forall_mem_singleton.mpr other⟩,
    writable.categories.insert plain ⟨third, fourth, before.percentage⟩⟩

omit writable in
theorem categoryOf_plain {categories : Fields} (texts : ∀ category ∈ categories, ∃ text, category.2 = .text text)
    (name : Value) : Ensures (categoryOf (.object categories) name) (Json.isPlainScalar · = true) := by
  show Ensures (name.asKey >>= fun key => ((Keyed.find? categories key).getD (.text "Other")).asKey) _
  refine Ensures.any.bind fun key _ => ?_
  cases found : Keyed.find? categories key with
  | none => exact .ok rfl
  | some category =>
    obtain ⟨_, member, _⟩ := Keyed.exists_mem_of_find? found
    obtain ⟨text, rfl⟩ : ∃ text, category = .text text := texts _ member
    exact .ok rfl

theorem sumUp_writable {scores : Keyed Score} (known : scores.Writable Score.Writable) {categories : Fields}
    (texts : ∀ category ∈ categories, ∃ text, category.2 = .text text) (names : List Value) :
    Ensures (sumUp scores (.object categories) sums names) Sums.Writable := by
  induction names generalizing sums with
  | nil => exact .ok writable
  | cons name names ih =>
    refine Ensures.any.bind fun key _ => ?_
    cases found : Keyed.find? scores key with
    | none => exact ih writable
    | some score =>
      exact (Sums.add_writable writable (known.of_find? found) (categoryOf_plain texts name)).bind fun _ => ih

end Sums

theorem Category.rounded_writable {category : Category} (writable : category.Writable) :
    Ensures category.rounded Category.Writable := by
  have finished {percentage : Value} (shared : percentage.isWritable = true) :
      Ensures (do return (⟨← roundHalfUp category.score 2, category.most, percentage⟩ : Category)) Category.Writable :=
    (roundHalfUp_isWritable category.score 2).bind fun _ score => .ok ⟨score, writable.most, shared⟩
  unfold Category.rounded
  refine Ensures.any.bind fun positive _ => ?_
  simp only
  split
  · refine Ensures.any.bind fun quotient _ => Ensures.any.bind fun share _ => ?_
    exact (roundHalfUp_isWritable share 1).bind fun _ => finished
  · exact finished rfl

theorem roundCategories_writable {categories : Keyed Category} (writable : categories.Writable Category.Writable) :
    Ensures (roundCategories categories) (·.Writable Category.Writable) := by
  induction categories with
  | nil => exact .ok .nil
  | cons entry rest ih =>
    obtain ⟨⟨plain, category⟩, later⟩ := List.forall_mem_cons.mp writable
    refine (Category.rounded_writable category).bind fun rounded here => (ih later).bind fun others all => ?_
    exact .ok (List.forall_mem_cons.mpr ⟨⟨plain, here⟩, all⟩)

theorem firstTier_isWritable (source : Source) {tiers : List Value} (writable : ∀ tier ∈ tiers, tier.isWritable = true) :
    Ensures (firstTier source tiers) fun told => told.1.isWritable = true ∧ told.2.isWritable = true := by
  induction tiers with
  | nil => exact .ok ⟨rfl, rfl⟩
  | cons tier tiers ih =>
    obtain ⟨here, later⟩ := List.forall_mem_cons.mp writable
    refine (Value.asObject_writable here).bind fun fields told => Ensures.any.bind fun holds _ => ?_
    split
    · exact .ok ⟨Fields.get_isWritable told "result", Fields.get_isWritable told "message"⟩
    · exact ih later

/-- Scores are summed up to something that can be written if categories are texts. -/
theorem ofScores_writable {scores : Keyed Score} (known : scores.Writable Score.Writable)
    (writable : rule.Writable (·.isWritable = true)) (sound : Form.SoundScoring rule) :
    Ensures (Rollup.ofScores scores rule) Rollup.Writable := by
  obtain ⟨categories, shape, texts⟩ := sound.categories
  have tiers : ((Fields.get rule "evaluationRules").orElse (.list [])).isWritable = true :=
    Value.isWritable_orElse (Fields.get_isWritable writable "evaluationRules") rfl
  unfold Rollup.ofScores
  simp only [shape]
  split
  · exact .ok ⟨rfl, rfl, rfl, rfl, rfl, List.forall_mem_nil _, .nil⟩
  refine Ensures.any.bind fun names _ => ?_
  refine (sumUp_writable ⟨rfl, rfl, List.forall_mem_nil _, .nil⟩ known texts names).bind fun sums summed => ?_
  refine Ensures.any.bind fun percentage _ => ?_
  refine (roundCategories_writable summed.categories).bind fun rounded shared => ?_
  refine (Value.items_isWritable tiers).bind fun tiers all => ?_
  refine (firstTier_isWritable _ all).bind fun (evaluation, message) told => ?_
  refine (roundHalfUp_isWritable sums.total 2).bind fun total reached => ?_
  refine (roundHalfUp_isWritable percentage 1).bind fun share rounded => .ok ?_
  exact ⟨reached, summed.most, rounded, told.1, told.2, summed.breakdown, shared⟩

end Scoring

end FormRules

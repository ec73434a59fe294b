import FormRules.Proofs.Messages
import FormRules.Proofs.NumberRange
import FormRules.Proofs.TextNames
import FormRules.Scoring.Subtype

/-! When scoring ends without a fault: the parameters of the rule have the right types, and neither the answer nor
what is earned leaves the range of numbers. -/

namespace FormRules

namespace Value

/-- A number, finite and with a magnitude up to a power of two. -/
def IsWithin (bits : Nat) (value : Value) : Prop := ∃ n, value = .number n ∧ n.Within bits

/-- What counts as a number has a floating point form. -/
def IsReadable (value : Value) : Prop := ∀ n, value.number? = some n → ∃ x, n.toFloat = .ok x

section

variable {bits more : Nat} {value first second : Value}

theorem IsWithin.mono (within : value.IsWithin bits) (less : bits ≤ more) : value.IsWithin more := by
  obtain ⟨n, rfl, small⟩ := within
  exact ⟨n, rfl, small.mono less⟩

theorem isWithin_zero (bits : Nat) : (Value.int 0).IsWithin bits := ⟨.int 0, rfl, .int (Nat.zero_le _)⟩

theorem isWithin_count {count : Nat} (few : count ≤ 2 ^ bits) : (Value.int count).IsWithin bits :=
  ⟨.int count, rfl, .int (by rwa [Int.natAbs_natCast])⟩

theorem IsWithin.isReadable (within : value.IsWithin bits) (room : bits < 1024) : value.IsReadable := by
  obtain ⟨n, rfl, small⟩ := within
  intro other counts
  cases counts
  obtain ⟨x, reads, _⟩ := small.toFloat room
  exact ⟨x, reads⟩

theorem IsWithin.add (left : first.IsWithin bits) (right : second.IsWithin bits) (room : bits + 1 < 1024) :
    Yields (first.add second) (·.IsWithin (bits + 1)) := by
  obtain ⟨a, rfl, left⟩ := left
  obtain ⟨b, rfl, right⟩ := right
  exact (left.add right room).map fun n within => ⟨n, rfl, within⟩

theorem IsWithin.sub (left : first.IsWithin bits) (right : second.IsWithin bits) (room : bits + 1 < 1024) :
    Yields (first.sub second) (·.IsWithin (bits + 1)) := by
  obtain ⟨a, rfl, left⟩ := left
  obtain ⟨b, rfl, right⟩ := right
  exact (left.sub right room).map fun n within => ⟨n, rfl, within⟩

theorem IsWithin.mul (left : first.IsWithin bits) (right : second.IsWithin more) (room : bits + more < 1024) :
    Yields (first.mul second) (·.IsWithin (bits + more)) := by
  obtain ⟨a, rfl, left⟩ := left
  obtain ⟨b, rfl, right⟩ := right
  exact (left.mul right room).map fun n within => ⟨n, rfl, within⟩

theorem IsWithin.div (within : value.IsWithin bits) (room : bits < 1024) {count : Nat} (positive : 0 < count)
    (few : count ≤ 2 ^ more) (other : more < 1024) : Yields (value.div (.int count)) (·.IsWithin bits) := by
  obtain ⟨n, rfl, small⟩ := within
  exact (small.div room positive few other).map fun n within => ⟨n, rfl, within⟩

theorem IsWithin.neg (within : value.IsWithin bits) : Yields value.neg (·.IsWithin bits) := by
  obtain ⟨n, rfl, small⟩ := within
  exact ⟨.number n.neg, rfl, n.neg, rfl, small.neg⟩

/-- Numbers can be compared, also those that are not finite. -/
theorem compare_number (comparison : Comparison) (first second : Number) :
    (Value.number first).compare comparison (.number second) = .ok (comparison.numbers first second) := by
  rw [Value.compare]
  rfl

theorem isPositive_number (n : Number) :
    (Value.number n).isPositive = .ok (Comparison.greater.numbers n (.int 0)) := compare_number ..

end

end Value

namespace Scoring

section Points

variable {bits more : Nat} {value : Value}

theorem atLeastZero_yields (within : value.IsWithin bits) : Yields (atLeastZero value) (·.IsWithin bits) := by
  obtain ⟨n, rfl, small⟩ := within
  unfold atLeastZero
  rw [Value.isPositive_number]
  refine Yields.bind (p := fun _ => True) (.ok trivial) fun positive _ => ?_
  split
  · exact .ok ⟨n, rfl, small⟩
  · exact .ok (Value.isWithin_zero bits)

theorem lost_yields (stakes : Stakes) (within : stakes.penalty.IsWithin bits) : Yields stakes.lost (·.IsWithin bits) := by
  obtain ⟨n, shape, small⟩ := within
  unfold Stakes.lost
  rw [shape, Value.isPositive_number]
  refine Yields.bind (p := fun _ => True) (.ok trivial) fun positive _ => ?_
  split
  · exact Value.IsWithin.neg ⟨n, rfl, small⟩
  · exact .ok (Value.isWithin_zero bits)

theorem isWithin_half (bits : Nat) : (Value.number half).IsWithin bits := by
  have small : (Number.Binary64.ofRatio false 1 2).Within 0 :=
    Number.Binary64.ofRatio_within (by decide) (by decide) (by decide)
  exact ⟨half, rfl, Number.Within.mono (.float small) (Nat.zero_le bits)⟩

/-- Rounding to hundredths does not overflow if there is room for the hundredths. -/
theorem roundHalfUp_yields (within : value.IsWithin bits) (room : bits + 8 < 1024) :
    Yields (roundHalfUp value 2) fun _ => True := by
  have few : Nat.pow 10 2 ≤ 2 ^ 7 := by decide
  unfold roundHalfUp
  refine (within.mul (Value.isWithin_count few) (by omega)).bind fun scaled reach => ?_
  refine (reach.add (isWithin_half _) (by omega)).bind fun shifted reach => ?_
  obtain ⟨n, rfl, small⟩ := reach
  refine small.floor.bind fun whole small => ?_
  have quotient : (Value.int whole).IsWithin (bits + 7 + 1) := ⟨.int whole, rfl, .int small⟩
  exact (quotient.div (by omega) (by decide) few (by decide)).weaken fun _ _ => trivial

theorem partialPoints_yields (stakes : Stakes) (points : stakes.points.IsWithin bits) (penalty : stakes.penalty.IsWithin bits)
    {right wrong total : Nat} (known : right ≤ 2 ^ more) (others : wrong ≤ 2 ^ more) (positive : 0 < total)
    (few : total ≤ 2 ^ more) (room : bits + more + 1 < 1024) :
    Yields (partialPoints stakes right wrong total) (·.IsWithin (bits + more + 1)) := by
  unfold partialPoints
  refine (points.mul (Value.isWithin_count known) (by omega)).bind fun _ gained => ?_
  refine (gained.div (by omega) positive few (by omega)).bind fun _ gained => ?_
  refine (penalty.mul (Value.isWithin_count others) (by omega)).bind fun _ lost => ?_
  refine (lost.div (by omega) positive few (by omega)).bind fun _ lost => ?_
  exact (gained.sub lost room).bind fun _ reach => atLeastZero_yields reach

end Points

/-- The parameters of a rule that scores are of the types that scoring asks for. -/
structure WellTyped (rule : Fields) : Prop where
  points : ∃ bits, (setting rule "points" (.int 1)).IsWithin bits
  penalty : ∃ bits, (setting rule "penalty" (.int 0)).IsWithin bits
  tolerance : ∃ bits, (setting rule "tolerance" (.int 0)).IsWithin bits
  least : ∃ bits, (setting rule "minLength" (.int 0)).IsWithin bits
  keywords : ∀ keywords, Keyed.find? rule (.text "keywords") = some keywords →
    ∃ lists, keywords = .object lists ∧ ∀ entry ∈ lists, entry.2.IsTexts

/-- An answer with which a way of scoring can do: what is compared as a number has a floating point form, what is
compared as a list has canonical texts, and points that are shared out or rounded leave room for that. -/
def Feasible (answer : Value) (rule : Fields) : Subtype → Prop
  | .exact => ∀ n, Fields.get rule "correctAnswer" = .number n → answer.IsReadable
  | .numeric => answer.IsReadable ∧ (Fields.get rule "correctAnswer").IsReadable
  | .choices => ∀ right, Fields.get rule "correctAnswer" = .list right → Value.areTextNamed right = true ∧
      ∃ bits more, bits + more < 1015 ∧
        (setting rule "points" (.int 1)).IsWithin bits ∧ (setting rule "penalty" (.int 0)).IsWithin bits ∧
        (chosen answer).length ≤ 2 ^ more ∧ right.length ≤ 2 ^ more
  | .keywords => ∃ bits, bits < 1015 ∧ (setting rule "points" (.int 1)).IsWithin bits
  | .custom => True

/-- An answer that can be scored by a rule, whose way of scoring can be told. -/
def Scorable (answer : Value) (rule : Fields) : Prop :=
  ∃ subtype, Subtype.ofValue (Fields.get rule "subtype") = .ok subtype ∧ Feasible answer rule subtype

section Ways

variable {answer : Value} {rule : Fields}

theorem readNumber_yields (readable : answer.IsReadable) : Yields (readNumber answer) fun _ => True := by
  unfold readNumber
  split
  · exact .ok trivial
  · split
    · exact .ok trivial
    next n counts =>
      obtain ⟨x, reads⟩ := readable n counts
      rw [reads]
      exact .ok trivial

theorem sortedTexts_yields {answers : List Value} (named : ∀ answer ∈ answers, answer.isTextNamed = true) :
    Yields (sortedTexts answers) (·.length = answers.length) := by
  unfold sortedTexts
  refine (Yields.mapM fun answer member => Json.canonical_yields answer (named answer member)).bind fun texts all => ?_
  exact .ok (by rw [List.length_mergeSort, all.1])

theorem isTextNamed_chosen (named : answer.isTextNamed = true) : ∀ choice ∈ chosen answer, choice.isTextNamed = true := by
  unfold chosen
  split
  · exact Value.areTextNamed_iff.mp named
  · exact List.forall_mem_singleton.mpr named

theorem exact_yields (typed : WellTyped rule) (feasible : Feasible answer rule .exact) :
    Yields (exact answer rule) fun _ => True := by
  obtain ⟨bits, penalty⟩ := typed.penalty
  unfold exact
  refine Yields.bind (p := fun _ => True) ?_ fun correct _ => ?_
  · unfold isExact
    split
    next n shape =>
      refine (readNumber_yields (feasible n shape)).bind fun given? _ => ?_
      cases given? <;> exact .ok trivial
    · exact .ok trivial
  · split
    · exact .ok trivial
    · exact (lost_yields (.ofRule rule) penalty).bind fun _ _ => .ok trivial

theorem choices_yields (feasible : Feasible answer rule .choices) (named : answer.isTextNamed = true) :
    Yields (choices answer rule) fun _ => True := by
  unfold choices
  simp only
  split
  next right shape =>
    obtain ⟨plain, bits, more, room, points, penalty, few, all⟩ := feasible right shape
    refine (sortedTexts_yields (isTextNamed_chosen named)).bind fun given chosen => ?_
    refine (sortedTexts_yields (Value.areTextNamed_iff.mp plain)).bind fun wanted expected => ?_
    split
    · exact (roundHalfUp_yields points (by omega)).bind fun _ _ => .ok trivial
    split
    next share =>
      have some : 0 < wanted.length := List.length_pos_iff.mpr (by simpa using (Bool.and_eq_true_iff.mp share).2)
      have hits : given.countP wanted.contains ≤ given.length := List.countP_le_length
      refine (partialPoints_yields (.ofRule rule) points penalty (by omega) (by omega) some
        (expected ▸ all) (by omega)).bind fun earned reach => ?_
      exact (roundHalfUp_yields reach (by omega)).bind fun _ _ => .ok trivial
    · refine (lost_yields (.ofRule rule) penalty).bind fun earned reach => ?_
      exact (roundHalfUp_yields reach (by omega)).bind fun _ _ => .ok trivial
  · exact .ok trivial

theorem numeric_yields (typed : WellTyped rule) (feasible : Feasible answer rule .numeric) :
    Yields (numeric answer rule) fun _ => True := by
  obtain ⟨bits, penalty⟩ := typed.penalty
  obtain ⟨_, n, tolerance, _⟩ := typed.tolerance
  unfold numeric
  simp only [tolerance]
  refine (readNumber_yields feasible.1).bind fun given? _ => ?_
  refine (readNumber_yields feasible.2).bind fun mark? _ => ?_
  cases given? with
  | none => exact .ok trivial
  | some given =>
    cases mark? with
    | none => exact .ok trivial
    | some mark =>
      simp only
      rw [Value.compare_number]
      refine Yields.bind (p := fun _ => True) (.ok trivial) fun close _ => ?_
      split
      · exact .ok trivial
      · refine (lost_yields (.ofRule rule) penalty).bind fun earned _ => ?_
        refine Yields.bind (p := fun _ => True) ?_ fun _ _ => .ok trivial
        unfold offMark
        rw [Value.isPositive_number]
        exact .ok trivial

/-- A list under a name of the keywords, or what stands in for it, is a list of texts. -/
theorem keywordList_yields {lists : Fields} (all : ∀ entry ∈ lists, entry.2.IsTexts) (name : String) :
    Yields (keywordList (.object lists) name (.list [])) Value.IsTexts := by
  refine .ok (show ((Fields.get lists name).orElse (.list [])).IsTexts from ?_)
  refine Fields.get_orElse (fun keywords found => ?_) ⟨[], rfl⟩
  obtain ⟨_, member, _⟩ := Keyed.exists_mem_of_find? found
  exact all _ member

theorem filterTexts_yields {test : Value → Except Fault Bool} {texts : List String}
    (each : ∀ text, Yields (test (.text text)) fun _ => True) :
    Yields ((texts.map Value.text).filterM test) fun kept => ∀ item ∈ kept, ∃ text, item = .text text := by
  refine Yields.filterM (fun item member => ?_) fun item member => ?_
  · obtain ⟨text, _, rfl⟩ := List.mem_map.mp member
    exact each text
  · obtain ⟨text, _, rfl⟩ := List.mem_map.mp member
    exact ⟨text, rfl⟩

/-- Optional keywords earn no more than twice the points. -/
theorem creditFor_yields {stakes : Stakes} {bits : Nat} (points : stakes.points.IsWithin bits) (room : bits + 1 < 1024)
    (found total : Nat) : Yields (creditFor stakes found total) (·.IsWithin (bits + 1)) := by
  have base : baseCredit.Within 0 := Number.Binary64.ofRatio_within (by decide) (by decide) (by decide)
  have each : shareCredit.Within 0 := Number.Binary64.ofRatio_within (by decide) (by decide) (by decide)
  unfold creditFor
  simp only
  split
  · exact .ok (points.mono (Nat.le_add_right _ _))
  next few =>
    have share : (Number.Binary64.ofRatio false found total).Within 0 :=
      Number.Binary64.ofRatio_within (by omega) (by decide) (by omega)
    split
    · exact points.mul ⟨_, rfl, .float (base.add (each.mul share (by decide)) (by decide))⟩ room
    · exact points.mul ⟨_, rfl, Number.Within.mono (.float base) (Nat.zero_le 1)⟩ room

theorem credit_yields (stakes : Stakes) {bits : Nat} (points : stakes.points.IsWithin bits) (room : bits + 1 < 1024)
    (text : String) {optional : Value} (texts : optional.IsTexts) :
    Yields (credit stakes text optional) (·.1.IsWithin (bits + 1)) := by
  obtain ⟨words, rfl⟩ := texts
  unfold credit
  refine Yields.bind (p := (· = words.map Value.text)) (.ok rfl) fun items known => ?_
  subst known
  refine (filterTexts_yields fun word => .ok trivial).bind fun found _ => ?_
  refine (creditFor_yields points room _ _).bind fun earned reach => ?_
  split
  · refine Yields.bind (p := fun _ => True) ?_ fun hints _ => .ok reach
    refine Value.joinTexts_yields fun item member => ?_
    obtain ⟨word, _, rfl⟩ := List.mem_map.mp (List.mem_of_mem_take member)
    exact ⟨word, rfl⟩
  · exact .ok reach

theorem keywords_yields (typed : WellTyped rule) (feasible : Feasible answer rule .keywords) :
    Yields (keywords answer rule) fun _ => True := by
  obtain ⟨bits, room, points⟩ := feasible
  obtain ⟨_, penalty⟩ := typed.penalty
  obtain ⟨_, n, least, _⟩ := typed.least
  have plain : ∀ entry ∈ [(Scalar.text "required", Value.list []), (.text "optional", .list [])], entry.2.IsTexts :=
    List.forall_mem_cons.mpr ⟨⟨[], rfl⟩, List.forall_mem_singleton.mpr ⟨[], rfl⟩⟩
  obtain ⟨lists, shape, all⟩ : ∃ lists, (Fields.get rule "keywords").orElse
      (.ofFields [("required", .list []), ("optional", .list [])]) = .object lists ∧ ∀ entry ∈ lists, entry.2.IsTexts :=
    Fields.get_orElse typed.keywords ⟨_, rfl, plain⟩
  unfold keywords
  simp only [least, shape]
  refine (keywordList_yields all "required").bind fun required texts => ?_
  refine (keywordList_yields all "optional").bind fun optional more => ?_
  refine (lost_yields (.ofRule rule) penalty).bind fun lost _ => ?_
  rw [Value.compare_number]
  refine Yields.bind (p := fun _ => True) (.ok trivial) fun short _ => ?_
  split
  · exact .ok trivial
  obtain ⟨words, rfl⟩ := texts
  refine Yields.bind (p := (· = words.map Value.text)) (.ok rfl) fun items known => ?_
  subst known
  refine (filterTexts_yields fun word => .ok trivial).bind fun missing missed => ?_
  split
  · exact (Value.joinTexts_yields missed).bind fun names _ => .ok trivial
  split
  · refine (credit_yields (.ofRule rule) points (by omega) _ more).bind fun earned reach => ?_
    exact (roundHalfUp_yields reach (by omega)).bind fun _ _ => .ok trivial
  · exact (roundHalfUp_yields points (by omega)).bind fun _ _ => .ok trivial

/-- Every way of scoring ends with a score, or with none if it is a way of its own. -/
theorem score?_yields {subtype : Subtype} (typed : WellTyped rule) (feasible : Feasible answer rule subtype)
    (named : answer.isTextNamed = true) : Yields (score? subtype answer rule) fun _ => True := by
  cases subtype with
  | exact => exact (exact_yields typed feasible).map fun _ _ => trivial
  | choices => exact (choices_yields feasible named).map fun _ _ => trivial
  | numeric => exact (numeric_yields typed feasible).map fun _ _ => trivial
  | keywords => exact (keywords_yields typed feasible).map fun _ _ => trivial
  | custom => exact .ok trivial

end Ways

end Scoring

end FormRules

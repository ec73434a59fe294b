import FormRules.Proofs.ChoicePoints
import FormRules.Proofs.ComparisonSides
import FormRules.Proofs.WholeForms

/-! What the right answer itself earns. A way of scoring that compares numbers reads the answer as a floating point
number, which must not be too large for that; an exact match compares this number with the right answer as it stands, so a
whole number must be a floating point number exactly. Lists are always right when they are chosen as they are. -/

namespace FormRules

attribute [local irreducible] Number.perOne Number.overflow

theorem Comparison.numbers_congr (comparison : Comparison) {first other : Number} (same : first.extent? = other.extent?)
    (second : Number) : comparison.numbers first second = comparison.numbers other second := by
  simp only [Comparison.numbers, Number.less, Number.equal, same]

namespace Value

/-- Only a number has an order with a number. -/
theorem number?_of_compare {value : Value} {comparison : Comparison} {n : Number} {answer : Bool}
    (ended : value.compare comparison (.number n) = .ok answer) :
    ∃ m, value.number? = some m ∧ comparison.numbers m n = answer := by
  obtain ⟨m, counts⟩ : ∃ m, value.number? = some m := by
    cases value with
    | scalar s =>
      cases s with
      | bool | number => exact ⟨_, rfl⟩
      | _ => cases ended
    | _ => cases ended
  rw [compare_of_number? comparison counts rfl] at ended
  exact ⟨m, counts, Except.ok.inj ended⟩

end Value

theorem Number.equal_of_amount? {first second : Number} {a : ℚ} (left : first.amount? = some a)
    (right : second.amount? = some a) : first.equal second = true := by
  obtain ⟨units, here, amount⟩ := extent?_of_amount? left
  obtain ⟨others, there, amount'⟩ := extent?_of_amount? right
  have positive : (perOne : ℚ) ≠ 0 := by exact_mod_cast perOne_pos.ne'
  rw [equal_of_extent? here there, decide_eq_true_eq]
  exact_mod_cast (div_left_inj' positive).mp (amount.symm.trans amount')

namespace Scoring

/-- A right answer, which earns the points of a rule. -/
structure Score.IsFull (score : Score) (rule : Fields) : Prop where
  correct : score.correct = true
  earned : score.earned = setting rule "points" (.int 1)

section Answers

variable {c : Value} {n : Number} {rule : Fields}

/-- Where a test decides whether the answer is right, all points are earned if it holds. -/
theorem full_iff {test : Except Fault Bool} {next : Bool → Except Fault Score}
    (right : Yields (next true) (·.IsFull rule)) (wrong : Ensures (next false) (·.correct = false)) :
    Yields (test >>= next) (·.IsFull rule) ↔ test = .ok true := by
  cases test with
  | error fault => exact iff_of_false (Yields.not_error fault) (fun same => nomatch same)
  | ok correct =>
    cases correct with
    | true => exact iff_of_true right rfl
    | false =>
      refine iff_of_false ?_ (fun same => nomatch same)
      rintro ⟨score, ended, full⟩
      exact Bool.false_ne_true ((wrong score ended).symm.trans full.correct)

theorem exact_iff (answer : Value) : Yields (exact answer rule) (·.IsFull rule) ↔
    isExact answer (Fields.get rule "correctAnswer") = .ok true := by
  unfold exact
  refine full_iff (.ok ⟨rfl, rfl⟩) ?_
  exact Ensures.any.bind fun earned _ => .ok rfl

theorem readNumber_number (n : Number) :
    readNumber (.number n) = n.toFloat.map fun x => if x.isNaN then none else some x := rfl

/-- A number is matched by its floating point form. A NaN is read as no number, and is equal to none anyway. -/
theorem isExact_number (n other : Number) :
    isExact (.number n) (.number other) = n.toFloat.map fun x => (Number.float x).equal other := by
  show (readNumber (.number n) >>= _) = _
  rw [readNumber_number]
  cases n.toFloat with
  | error fault => rfl
  | ok x => cases x <;> rfl

theorem isExact_int (n : Int) : isExact (.int n) (.int n) = .ok true ↔ Number.IsExact n := by
  rw [Number.isExact_iff, isExact_number, Fault.map_ok_iff]

theorem isExact_float (x : Number.Binary64) : isExact (.float x) (.float x) = .ok true ↔ x ≠ .nan := by
  have compared : isExact (.float x) (.float x) = .ok ((Number.float x).equal (.float x)) := isExact_number ..
  rw [compared]
  cases x with
  | nan => exact iff_of_false (fun ended => nomatch ended) (fun known => known rfl)
  | infinite | finite => exact iff_of_true (congrArg Except.ok (Number.equal_self rfl)) nofun

/-- What is no number is the same text as itself. -/
theorem isExact_text (other : ∀ n, c ≠ .number n) : isExact c c = .ok true := by
  have compared : isExact c c = .ok (plainText c == plainText c) := by
    unfold isExact
    split
    next n => exact absurd rfl (other n)
    next => rfl
  rw [compared, beq_self_eq_true]

theorem isExact_self : isExact c c = .ok true ↔ (∀ n : Int, c = .int n → Number.IsExact n) ∧ c ≠ .float .nan := by
  by_cases number : ∃ n, c = .number n
  · obtain ⟨n | x, rfl⟩ := number
    · rw [show Value.number (.int n) = .int n from rfl, isExact_int]
      exact ⟨fun exact => ⟨fun m same => by cases same; exact exact, nofun⟩, fun ⟨exact, _⟩ => exact n rfl⟩
    · rw [show Value.number (.float x) = .float x from rfl, isExact_float]
      refine ⟨fun known => ⟨nofun, ?_⟩, fun ⟨_, known⟩ => ?_⟩
      · rintro ⟨⟩
        exact known rfl
      · rintro rfl
        exact known rfl
  · have other : ∀ n, c ≠ .number n := fun n same => number ⟨n, same⟩
    exact iff_of_true (isExact_text other) ⟨fun n same => absurd same (other _), other _⟩

/-- Taking a number from itself leaves nothing, unless it is infinite. -/
theorem sub_self_close {x : Number.Binary64} (known : x.isNaN = false) {m : Number}
    (least : Comparison.greaterEqual.numbers m (.int 0) = true) :
    Comparison.lessEqual.numbers (.float (x.sub x).abs) m = true ↔
      ∃ negative magnitude, x = .finite negative magnitude := by
  cases x with
  | nan => cases known
  | infinite negative =>
    refine iff_of_false ?_ nofun
    cases negative <;> exact Bool.false_ne_true
  | finite negative magnitude =>
    refine iff_of_true ?_ ⟨negative, magnitude, rfl⟩
    have nothing : (Number.float (.finite false .nothing)).extent? = (Number.int 0).extent? := by
      show _ = some (Number.Extent.point (0 * Number.perOne))
      rw [Int.zero_mul]
      rfl
    rw [Number.Binary64.sub_self, Number.Binary64.abs, Comparison.numbers_congr _ nothing]
    exact (Comparison.numbers_converse .greaterEqual m (.int 0)).trans least

theorem numeric_iff (listed : Fields.get rule "correctAnswer" = .number n)
    (least : (setting rule "tolerance" (.int 0)).compare .greaterEqual (.int 0) = .ok true) :
    Yields (numeric (.number n) rule) (·.IsFull rule) ↔
      ∃ negative magnitude, n.toFloat = .ok (.finite negative magnitude) := by
  obtain ⟨m, counts, least⟩ := Value.number?_of_compare least
  unfold numeric
  rw [listed]
  dsimp only
  rw [readNumber_number]
  cases n.toFloat with
  | error fault => exact iff_of_false (Yields.not_error fault) (fun ⟨_, _, reads⟩ => nomatch reads)
  | ok x =>
    have form : (∃ negative magnitude, (.ok x : Except Fault _) = .ok (.finite negative magnitude)) ↔
        ∃ negative magnitude, x = .finite negative magnitude := by
      simp only [Except.ok.injEq]
    rw [form]
    cases known : x.isNaN with
    | true =>
      cases x with
      | nan => exact iff_of_false (fun ⟨_, ended, full⟩ => by cases ended; cases full.correct) nofun
      | _ => cases known
    | false =>
      have counts' : (Value.float (x.sub x).abs).number? = some (.float (x.sub x).abs) := rfl
      have close : (Value.float (x.sub x).abs).compare .lessEqual (setting rule "tolerance" (.int 0)) = .ok true ↔
          ∃ negative magnitude, x = .finite negative magnitude := by
        rw [Value.compare_of_number? .lessEqual counts' counts, Except.ok.injEq, sub_self_close known least]
      rw [← close]
      simp only [Except.map, known]
      refine full_iff (.ok ⟨rfl, rfl⟩) ?_
      exact Ensures.any.bind fun earned _ => Ensures.any.bind fun message _ => .ok rfl

theorem grade_self (stakes : Stakes) (shares : Bool) (texts : List String) :
    grade stakes shares texts texts = (roundHalfUp stakes.points 2).map (true, ·) := by
  unfold grade
  rw [if_pos (beq_self_eq_true texts)]

/-- A list with canonical texts has those of itself, and points whose hundredfold takes 53 bits are kept by rounding. -/
theorem choices_self {items : List Value} {points : Nat} (listed : Fields.get rule "correctAnswer" = .list items)
    (named : Value.areTextNamed items = true) (worth : setting rule "points" (.int 1) = .int points)
    (few : 25 * points ≤ 2 ^ 53) :
    Yields (choices (.list items) rule) fun score => score.correct = true ∧ score.earned.same (.int points) = true := by
  obtain ⟨texts, sorted, _⟩ := sortedTexts_yields (Value.areTextNamed_iff.mp named)
  have within : (Stakes.ofRule rule).points.IsWithin 53 := by
    refine ⟨.int points, worth, .int ?_⟩
    rw [Int.natAbs_natCast]
    omega
  obtain ⟨earned, rounded, _⟩ := roundHalfUp_yields within (by decide)
  have counts : (Stakes.ofRule rule).points.number? = some (.int points) := congrArg Value.number? worth
  obtain ⟨x, rfl, stands⟩ := rounds_right counts few rounded
  have graded : grade (.ofRule rule) (sharesPoints rule) texts texts = .ok (true, .float x) := by
    rw [grade_self, rounded]
    rfl
  obtain ⟨score, scored, same⟩ := choices_of_grade listed (.list items) sorted sorted graded
  obtain ⟨correct, full⟩ := Prod.mk.inj same
  refine ⟨score, scored, correct, ?_⟩
  rw [full, Value.same]
  exact Number.equal_of_amount? stands rfl

/-- The right answer is told to be right, and earns all points. An exact match fails to do so only for a whole number that
is no floating point number and for a NaN; a match within a tolerance that is not negative, only for a number without a
finite floating point form. A choice of a list never does, whatever is in it. -/
theorem scored_as_right (known : Fields.get rule "correctAnswer" = c) :
    (Yields (exact c rule) (·.IsFull rule) ↔ (∀ n : Int, c = .int n → Number.IsExact n) ∧ c ≠ .float .nan) ∧
    (∀ n, c = .number n → (setting rule "tolerance" (.int 0)).compare .greaterEqual (.int 0) = .ok true →
      (Yields (numeric c rule) (·.IsFull rule) ↔ ∃ negative magnitude, n.toFloat = .ok (.finite negative magnitude))) ∧
    (∀ (items : List Value) (points : Nat), c = .list items → Value.areTextNamed items = true →
      setting rule "points" (.int 1) = .int points → 25 * points ≤ 2 ^ 53 →
      Yields (choices c rule) fun score => score.correct = true ∧ score.earned.same (.int points) = true) := by
  refine ⟨?_, ?_, ?_⟩
  · rw [exact_iff, known, isExact_self]
  · rintro n rfl least
    exact numeric_iff known least
  · rintro items points rfl named worth few
    exact choices_self known named worth few

end Answers

namespace Exam

def rule (c : Value) : Fields := [(.text "correctAnswer", c), (.text "points", .int (2 ^ 40 : ℕ))]

end Exam

open Exam in
theorem scored_as_right_exam :
    Yields (exact (.text " Paris ") (rule (.text " Paris "))) (·.IsFull (rule (.text " Paris "))) ∧
    Yields (exact (.int 9007199254740994) (rule (.int 9007199254740994))) (·.IsFull (rule (.int 9007199254740994))) ∧
    Yields (numeric (.int 9007199254740993) (rule (.int 9007199254740993))) (·.IsFull (rule (.int 9007199254740993))) ∧
    Yields (choices (.list Menu.right) (rule (.list Menu.right))) fun score =>
      score.correct = true ∧ score.earned.same (.int (2 ^ 40 : ℕ)) = true := by
  have whole : Number.IsExact 9007199254740994 := by decide +kernel
  obtain ⟨text, _, _⟩ := @scored_as_right _ (rule (.text " Paris ")) rfl
  obtain ⟨even, _, _⟩ := @scored_as_right _ (rule (.int 9007199254740994)) rfl
  obtain ⟨_, odd, _⟩ := @scored_as_right _ (rule (.int 9007199254740993)) rfl
  obtain ⟨_, _, list⟩ := @scored_as_right _ (rule (.list Menu.right)) rfl
  refine ⟨text.mpr ⟨nofun, nofun⟩, even.mpr ⟨?_, nofun⟩, (odd _ rfl ?_).mpr ?_, list Menu.right _ rfl rfl rfl ?_⟩
  · rintro n ⟨⟩
    exact whole
  · exact ok_of_toOption (by decide +kernel)
  · have small : (Number.int 9007199254740993).Within 54 := .int (by decide)
    obtain ⟨_, reads, within⟩ := small.toFloat (by decide)
    cases within
    exact ⟨_, _, reads⟩
  · decide

open Exam in
/-- A whole number that is no floating point number is not its own match, though it is within a tolerance of nothing, and
one that is too large for a floating point number is not scored at all. -/
theorem exact_not_right :
    (exact (.int 9007199254740993) (rule (.int 9007199254740993))).map (·.correct) = .ok false ∧
    (numeric (.int 9007199254740993) (rule (.int 9007199254740993))).map (·.correct) = .ok true ∧
    (exact (.int (Nat.pow 10 400)) (rule (.int (Nat.pow 10 400)))).toOption.isNone ∧
    (numeric (.int (Nat.pow 10 400)) (rule (.int (Nat.pow 10 400)))).toOption.isNone :=
  ⟨ok_of_toOption (by decide +kernel), ok_of_toOption (by decide +kernel), by decide +kernel, by decide +kernel⟩

end Scoring

end FormRules

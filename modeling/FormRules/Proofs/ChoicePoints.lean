import FormRules.Proofs.ChoiceOrder
import FormRules.Proofs.WholeHundredths

/-! What a choice of several answers earns: never less than the penalty takes, and never more than the points unless
a right answer is given more often than it is listed. Only a right choice earns the points, or one that falls short by
no more than rounding to hundredths makes up for. -/

namespace FormRules

namespace Scoring

open Number (Rounds Held)

/-- A share of the points less a share of the penalty, if that is above zero. Every operation on the way is rounded. -/
def SharedOut (points penalty right wrong total : Nat) (amount : ℚ) : Prop :=
  amount = 0 ∨ 0 < amount ∧ ∃ gained lost, Rounds ((points * right : ℕ) / total) gained ∧
    Rounds ((penalty * wrong : ℕ) / total) lost ∧ Rounds (gained - lost) amount

section Shares

variable {points penalty right wrong total : Nat} {amount : ℚ}

theorem SharedOut.nonneg (shared : SharedOut points penalty right wrong total amount) : 0 ≤ amount := by
  obtain rfl | ⟨positive, _⟩ := shared
  · exact le_rfl
  · exact positive.le

theorem SharedOut.le (shared : SharedOut points penalty right wrong total amount) (positive : 0 < total)
    (few : points ≤ 2 ^ 53) (listed : right ≤ total) : amount ≤ points := by
  have held : Held points := Number.held_nat few
  have above : (0 : ℚ) < total := by exact_mod_cast positive
  obtain rfl | ⟨_, gained, lost, first, second, rounds⟩ := shared
  · exact Nat.cast_nonneg points
  · have most : gained ≤ points := by
      refine first.le held ?_
      rw [div_le_iff₀ above]
      exact_mod_cast Nat.mul_le_mul_left points listed
    have least : 0 ≤ lost := second.ge Number.held_zero (by positivity)
    exact rounds.le held (by linarith)

/-- The exact shares fall short of the points by what is missing and wrong. -/
theorem quotients_le (positive : 0 < total) (listed : right ≤ total)
    (dear : total < 200 * (points * (total - right) + penalty * wrong)) :
    ((points * right : ℕ) : ℚ) / total - (penalty * wrong : ℕ) / total ≤ points - 1 / 200 - 1 / (200 * total) := by
  have above : (0 : ℚ) < total := by exact_mod_cast positive
  have dear : ((total : ℚ) + 1) ≤ 200 * (points * (total - right) + penalty * wrong) := by
    rw [← Nat.cast_sub listed]
    exact_mod_cast dear
  rw [← sub_div, div_le_iff₀ above]
  push_cast
  calc (points * right - penalty * wrong : ℚ) ≤ points * total - total / 200 - 1 / 200 := by linarith
    _ = (points - 1 / 200 - 1 / (200 * total)) * total := by field_simp

/-- Half a hundredth of a share is neither large nor as light as what the roundings add up to. -/
theorem share_bounds (some : 0 < points) (positive : 0 < total) (few : points * total ≤ 2 ^ 43) :
    (1 : ℚ) / (200 * total) ≤ 1 / 200 ∧ 1 / (200 * 2 ^ 43) ≤ (1 : ℚ) / (200 * total) ∧
      (points : ℚ) ≤ 2 ^ 43 * 200 * (1 / (200 * total)) := by
  have one : (1 : ℚ) ≤ total := by exact_mod_cast positive
  have fewer : (total : ℚ) ≤ 2 ^ 43 := by exact_mod_cast Nat.le_trans (Nat.le_mul_of_pos_left total some) few
  refine ⟨one_div_le_one_div_of_le (by norm_num) (by linarith),
    one_div_le_one_div_of_le (by positivity) (by linarith), ?_⟩
  rw [mul_one_div, le_div_iff₀ (by positivity)]
  have : (points * total : ℚ) ≤ 2 ^ 43 := by exact_mod_cast few
  linarith

/-- What is missing or wrong leaves a gap below the points, which rounding to hundredths does not close unless it is
no more than half a hundredth. -/
theorem SharedOut.short (shared : SharedOut points penalty right wrong total amount) (some : 0 < points)
    (positive : 0 < total) (few : points * total ≤ 2 ^ 43) (listed : right ≤ total)
    (dear : total < 200 * (points * (total - right) + penalty * wrong)) :
    ∃ gap : ℚ, gap ≤ 1 / 2 ∧ 2 * points / 2 ^ 53 + 3 / 2 ^ 100 ≤ gap ∧ amount ≤ points - 1 / 200 - gap := by
  have missed := quotients_le positive listed dear
  obtain ⟨light, heavy, room⟩ := share_bounds some positive few
  have above : (0 : ℚ) < total := by exact_mod_cast positive
  have one : (1 : ℚ) ≤ points := by exact_mod_cast some
  have fewer : points ≤ 2 ^ 43 := Nat.le_trans (Nat.le_mul_of_pos_right points positive) few
  have held : Held points := Number.held_nat (by omega)
  have fewer : (points : ℚ) ≤ 2 ^ 43 := by exact_mod_cast fewer
  have gains : (0 : ℚ) ≤ (points * right : ℕ) / total := by positivity
  have losses : (0 : ℚ) ≤ (penalty * wrong : ℕ) / total := by positivity
  have most : ((points * right : ℕ) : ℚ) / total ≤ points := by
    rw [div_le_iff₀ above]
    exact_mod_cast Nat.mul_le_mul_left points listed
  generalize (1 : ℚ) / (200 * total) = share at *
  refine ⟨share - 3 * points / 2 ^ 53 - 3 / 2 ^ 100, by linarith, by linarith, ?_⟩
  obtain rfl | ⟨more, gained, lost, first, second, rounds⟩ := shared
  · linarith
  generalize ((points * right : ℕ) : ℚ) / total = gain at *
  generalize ((penalty * wrong : ℕ) : ℚ) / total = loss at *
  rcases le_or_gt loss points with less | larger
  · have up := first.le_add gain points gains le_rfl most
    have down := second.sub_le losses
    have sum := rounds.le_add (points - 1 / 200 - share + 2 * points / 2 ^ 53 + 2 / 2 ^ 100) points
      (by linarith) (by linarith) (by linarith)
    linarith
  · -- Nothing is left after a loss of more than the points, but an amount is above zero.
    have none : gained - lost ≤ 0 := sub_nonpos.mpr ((first.le held most).trans (second.ge held larger.le))
    exact absurd (rounds.le Number.held_zero none) (not_le.mpr more)

end Shares

/-- A share of a whole number is a floating point number. -/
theorem exists_of_share {value product quotient : Value} {whole part total : Nat}
    (counts : value.number? = some (.int whole)) (positive : 0 < total)
    (multiplied : value.mul (.int part) = .ok product) (divided : product.div (.int total) = .ok quotient) :
    ∃ x a, quotient = .float x ∧ x.amount? = some a ∧ Rounds ((whole * part : ℕ) / total) a := by
  rw [Value.mul_of_number? counts (b := .int part) rfl] at multiplied
  obtain ⟨n, exact, rfl⟩ := Fault.of_map_ok multiplied
  cases exact
  rw [Value.div_of_number? (a := .int (whole * part : ℕ)) (b := .int total) rfl rfl] at divided
  obtain ⟨n, ratio, rfl⟩ := Fault.of_map_ok divided
  obtain ⟨x, a, rfl, stands, rounds⟩ := Number.exists_of_div positive ratio
  exact ⟨x, a, rfl, stands, rounds⟩

theorem exists_of_partialPoints {stakes : Stakes} {points penalty right wrong total : Nat} {earned : Value}
    (worth : stakes.points.number? = some (.int points)) (costs : stakes.penalty.number? = some (.int penalty))
    (positive : 0 < total) (ended : partialPoints stakes right wrong total = .ok earned) :
    ∃ n, earned = .number n ∧ ∀ amount, n.amount? = some amount → SharedOut points penalty right wrong total amount := by
  unfold partialPoints at ended
  obtain ⟨_, multiplied, ended⟩ := Fault.of_bind_ok ended
  obtain ⟨_, divided, ended⟩ := Fault.of_bind_ok ended
  obtain ⟨x, gained, rfl, first, gains⟩ := exists_of_share worth positive multiplied divided
  obtain ⟨_, multiplied, ended⟩ := Fault.of_bind_ok ended
  obtain ⟨_, divided, ended⟩ := Fault.of_bind_ok ended
  obtain ⟨y, lost, rfl, second, losses⟩ := exists_of_share costs positive multiplied divided
  obtain ⟨_, subtracted, ended⟩ := Fault.of_bind_ok ended
  rw [Value.sub_of_number? (a := .float x) (b := .float y) rfl rfl] at subtracted
  obtain ⟨_, difference, rfl⟩ := Fault.of_map_ok subtracted
  cases difference
  rw [atLeastZero, Value.isPositive_number] at ended
  cases positive : Comparison.greater.numbers (.float (x.sub y)) (.int 0) with
  | false =>
    rw [positive] at ended
    cases ended
    refine ⟨.int 0, rfl, fun amount stands => .inl ?_⟩
    cases stands
    exact Int.cast_zero
  | true =>
    rw [positive] at ended
    cases ended
    refine ⟨_, rfl, fun amount stands => .inr ?_⟩
    obtain ⟨a, b, left, right, rounds⟩ := Number.Binary64.exists_of_sub stands
    cases first.symm.trans left
    cases second.symm.trans right
    refine ⟨?_, gained, lost, gains, losses, rounds⟩
    have less : (Number.int 0).less (.float (x.sub y)) = true := positive
    rw [Number.less_eq_decide rfl stands] at less
    exact_mod_cast of_decide_eq_true less

/-- No text that is wanted is given more often than it is wanted. -/
def Unrepeated (given wanted : List String) : Prop := ∀ text ∈ wanted, given.count text ≤ wanted.count text

theorem Unrepeated.countP_le {given wanted : List String} (unrepeated : Unrepeated given wanted) :
    given.countP wanted.contains ≤ wanted.length := by
  rw [List.countP_eq_length_filter]
  refine (List.subperm_ext_iff.mpr fun text member => ?_).length_le
  obtain ⟨_, among⟩ := List.mem_filter.mp member
  rw [List.count_filter among]
  exact unrepeated text (List.contains_iff_mem.mp among)

/-- What the wanted texts that are not given and those given that are not wanted cost, in shares of a point of which
there are as many as wanted texts. -/
def shortfall (points penalty : Nat) (given wanted : List String) : Nat :=
  points * (wanted.length - given.countP wanted.contains) + penalty * (given.length - given.countP wanted.contains)

section Grades

variable {stakes : Stakes} {points penalty : Nat} {given wanted : List String} {earned : Value}

theorem greater_zero (n : Int) : Comparison.greater.numbers (.int n) (.int 0) = decide (0 < n) := by
  rw [Comparison.numbers, Comparison.ofOrder, Number.less_int]

theorem eq_of_lost (costs : stakes.penalty.number? = some (.int penalty)) (ended : stakes.lost = .ok earned) :
    earned = .int (-penalty) := by
  unfold Stakes.lost at ended
  rw [Value.isPositive_of_number? costs, greater_zero] at ended
  obtain ⟨positive, test, ended⟩ := Fault.of_bind_ok ended
  obtain rfl := Except.ok.inj test
  by_cases some : (0 : Int) < penalty
  · rw [if_pos (decide_eq_true some), Value.neg_of_number? costs] at ended
    exact (Except.ok.inj ended).symm
  · rw [if_neg (by simpa using some)] at ended
    rw [Int.le_antisymm (Int.not_lt.mp some) (Int.natCast_nonneg penalty), Int.neg_zero]
    exact (Except.ok.inj ended).symm

theorem rounds_right (worth : stakes.points.number? = some (.int points)) (few : 25 * points ≤ 2 ^ 53)
    (ended : roundHalfUp stakes.points 2 = .ok earned) : ∃ x, earned = .float x ∧ x.amount? = some (points : ℚ) := by
  obtain ⟨_, x, amount, exact, rfl, stands, rounds⟩ := exists_of_roundHalfUp worth ended
  cases exact
  have full : amount = points :=
    le_antisymm (rounds.le few le_rfl) (rounds.ge points (by rwa [Int.natAbs_natCast]) le_rfl)
  exact ⟨x, rfl, full ▸ stands⟩

theorem rounds_part {right wrong total : Nat} (worth : stakes.points.number? = some (.int points))
    (costs : stakes.penalty.number? = some (.int penalty)) (positive : 0 < total)
    (ended : (partialPoints stakes right wrong total >>= (roundHalfUp · 2)) = .ok earned) :
    ∃ x amount part, earned = .float x ∧ x.amount? = some amount ∧ ToHundredths part amount ∧
      SharedOut points penalty right wrong total part := by
  obtain ⟨_, shares, ended⟩ := Fault.of_bind_ok ended
  obtain ⟨n, rfl, shared⟩ := exists_of_partialPoints worth costs positive shares
  obtain ⟨part, x, amount, exact, rfl, stands, rounds⟩ := exists_of_roundHalfUp rfl ended
  exact ⟨x, amount, part, rfl, stands, rounds, shared part exact⟩

theorem rounds_lost (costs : stakes.penalty.number? = some (.int penalty)) (few : 25 * penalty ≤ 2 ^ 53)
    (ended : (stakes.lost >>= (roundHalfUp · 2)) = .ok earned) :
    ∃ x amount, earned = .float x ∧ x.amount? = some amount ∧ -penalty ≤ amount ∧ amount ≤ 0 := by
  obtain ⟨_, lost, ended⟩ := Fault.of_bind_ok ended
  obtain rfl := eq_of_lost costs lost
  obtain ⟨_, x, amount, exact, rfl, stands, rounds⟩ := exists_of_roundHalfUp rfl ended
  cases exact
  have least := rounds.ge (-penalty) (by rwa [Int.natAbs_neg, Int.natAbs_natCast]) le_rfl
  have most : amount ≤ (0 : ℕ) := rounds.le (by decide) (by simp)
  exact ⟨x, amount, rfl, stands, by simpa using least, by simpa using most⟩

/-- What a choice earns: all points, nothing or less, or a part of the points. -/
theorem exists_of_grade {shares : Bool} {result : Bool × Value} (worth : stakes.points.number? = some (.int points))
    (costs : stakes.penalty.number? = some (.int penalty)) (few : 25 * points ≤ 2 ^ 53) (few' : 25 * penalty ≤ 2 ^ 53)
    (ended : grade stakes shares given wanted = .ok result) :
    ∃ x earned, result.2 = .float x ∧ x.amount? = some earned ∧ -penalty ≤ earned ∧
      (given = wanted ∧ earned = points ∨ given ≠ wanted ∧ earned ≤ 0 ∨
        given ≠ wanted ∧ shares = true ∧ 0 < wanted.length ∧ ∃ part, ToHundredths part earned ∧
          SharedOut points penalty (given.countP wanted.contains) (given.length - given.countP wanted.contains)
            wanted.length part) := by
  have below : -(penalty : ℚ) ≤ 0 := neg_nonpos.mpr (Nat.cast_nonneg penalty)
  unfold grade at ended
  split at ended
  next same =>
    obtain ⟨_, scored, rfl⟩ := Fault.of_map_ok ended
    obtain ⟨x, shape, stands⟩ := rounds_right worth few scored
    exact ⟨x, points, shape, stands, below.trans (Nat.cast_nonneg points), .inl ⟨eq_of_beq same, rfl⟩⟩
  next other =>
    have other : given ≠ wanted := fun same => other (beq_iff_eq.mpr same)
    split at ended
    next share =>
      obtain ⟨shares, some⟩ := Bool.and_eq_true_iff.mp share
      have positive : 0 < wanted.length := List.length_pos_iff.mpr (by simpa using some)
      obtain ⟨_, scored, rfl⟩ := Fault.of_map_ok ended
      obtain ⟨x, earned, part, shape, stands, rounds, shared⟩ := rounds_part worth costs positive scored
      have least : ((0 : Int) : ℚ) ≤ earned := rounds.ge 0 (by decide) (by exact_mod_cast shared.nonneg)
      exact ⟨x, earned, shape, stands, below.trans (by exact_mod_cast least),
        .inr (.inr ⟨other, shares, positive, part, rounds, shared⟩)⟩
    next =>
      obtain ⟨_, scored, rfl⟩ := Fault.of_map_ok ended
      obtain ⟨x, earned, shape, stands, least, none⟩ := rounds_lost costs few' scored
      exact ⟨x, earned, shape, stands, least, .inr (.inl ⟨other, none⟩)⟩

end Grades

/-- A choice earns a finite number of points, which is not less than the penalty takes. A right choice earns the
points. If no right answer is given more often than it is listed, no choice earns more, and another one earns as much
only where a part of the answers earns a part of the points and what it falls short by is rounded up. -/
theorem choices_within_points {answer : Value} {rule : Fields} {right : List Value} {points penalty : Nat} {score : Score}
    (listed : Fields.get rule "correctAnswer" = .list right)
    (worth : (setting rule "points" (.int 1)).number? = some (.int points))
    (costs : (setting rule "penalty" (.int 0)).number? = some (.int penalty))
    (few : 25 * points ≤ 2 ^ 53) (few' : 25 * penalty ≤ 2 ^ 53) (ended : choices answer rule = .ok score) :
    ∃ given wanted x earned, sortedTexts (chosen answer) = .ok given ∧ sortedTexts right = .ok wanted ∧
      (score.correct = true ↔ given = wanted) ∧ score.earned = .float x ∧ x.amount? = some earned ∧
      -penalty ≤ earned ∧ (given = wanted → earned = points) ∧
      (Unrepeated given wanted → earned ≤ points ∧
        (0 < points → points * wanted.length ≤ 2 ^ 43 → earned = points →
          given = wanted ∨ sharesPoints rule = true ∧ 200 * shortfall points penalty given wanted ≤ wanted.length)) := by
  obtain ⟨given, wanted, chosen, expected, graded⟩ := exists_of_choices listed ended
  have correct : score.correct = (given == wanted) := grade_correct graded
  obtain ⟨x, earned, shape, stands, least, ways⟩ := exists_of_grade worth costs few few' graded
  refine ⟨given, wanted, x, earned, chosen, expected, by rw [correct, beq_iff_eq], shape, stands, least, ?_, ?_⟩
  · intro same
    obtain ⟨_, full⟩ | ⟨other, _⟩ | ⟨other, _⟩ := ways
    · exact full
    · exact absurd same other
    · exact absurd same other
  · intro unrepeated
    obtain ⟨same, rfl⟩ | ⟨other, none⟩ | ⟨other, shares, positive, amount, rounds, shared⟩ := ways
    · exact ⟨le_rfl, fun _ _ _ => .inl same⟩
    · refine ⟨none.trans (Nat.cast_nonneg points), fun some _ full => ?_⟩
      have : (0 : ℚ) < points := by exact_mod_cast some
      linarith
    · have listed := unrepeated.countP_le
      refine ⟨rounds.le few (shared.le positive (by omega) listed), fun some fewer full => .inr ⟨shares, ?_⟩⟩
      by_contra dear
      obtain ⟨gap, small, wide, short⟩ := shared.short some positive fewer listed (Nat.not_le.mp dear)
      have fewest : points ≤ 2 ^ 43 := Nat.le_trans (Nat.le_mul_of_pos_right points positive) fewer
      exact absurd full (rounds.lt some fewest small wide short).ne

namespace Quiz

def rule (wanted : List String) (shares : Bool) (points penalty : Int) : Fields := [
  (.text "correctAnswer", .list (wanted.map .text)),
  (.text "partialCredit", .bool shares),
  (.text "points", .int points),
  (.text "penalty", .int penalty)]

/-- Whether the texts given are right, and how what they earn compares with an amount. -/
def Earns (given wanted : List String) (shares : Bool) (points penalty : Int) (correct : Bool) (comparison : Comparison)
    (amount : Int) : Prop :=
  ∃ score, choices (.list (given.map .text)) (rule wanted shares points penalty) = .ok score ∧
    score.correct = correct ∧ score.earned.compare comparison (.int amount) = .ok true

theorem sortedTexts_of_pairwise {texts : List String} (sorted : (texts.map (Json.writeText .ascii)).Pairwise (· ≤ ·)) :
    sortedTexts (texts.map .text) = .ok (texts.map (Json.writeText .ascii)) := by
  have written : (texts.map Value.text).mapM (Json.canonical true) = .ok (texts.map (Json.writeText .ascii)) := by
    induction texts with
    | nil => rfl
    | cons text texts ih =>
      rw [List.map_cons, List.mapM_cons, ih (List.Pairwise.of_cons sorted)]
      rfl
  unfold sortedTexts
  rw [written]
  exact congrArg Except.ok (List.mergeSort_of_pairwise (by simpa using sorted))

theorem earns_of_grade {given wanted : List String} {shares correct : Bool} {points penalty amount : Int}
    {comparison : Comparison} (sorted : (given.map (Json.writeText .ascii)).Pairwise (· ≤ ·))
    (sorted' : (wanted.map (Json.writeText .ascii)).Pairwise (· ≤ ·))
    (graded : ((grade ⟨.int points, .int penalty⟩ shares (given.map (Json.writeText .ascii))
      (wanted.map (Json.writeText .ascii))).toOption.map fun result =>
        (result.1, (result.2.compare comparison (.int amount)).toOption)) = some (correct, some true)) :
    Earns given wanted shares points penalty correct comparison amount := by
  obtain ⟨result, ended, same⟩ := Option.map_eq_some_iff.mp graded
  obtain ⟨right, compared⟩ := Prod.mk.inj same
  have stakes : Stakes.ofRule (rule wanted shares points penalty) = ⟨.int points, .int penalty⟩ := rfl
  have share : sharesPoints (rule wanted shares points penalty) = shares := rfl
  rw [← stakes, ← share] at ended
  obtain ⟨score, scored, grades⟩ := choices_of_grade rfl (.list (given.map .text))
    (sortedTexts_of_pairwise sorted) (sortedTexts_of_pairwise sorted') (ok_of_toOption ended)
  obtain ⟨correct, earned⟩ := Prod.mk.inj grades
  exact ⟨score, scored, correct.trans right, earned ▸ ok_of_toOption compared⟩

end Quiz

open Quiz in
theorem choices_within_points_quiz : ∃ score x earned,
    choices (.list [.text "a", .text "b", .text "x"]) (rule ["a", "b", "c"] true 3 1) = .ok score ∧
      score.correct = false ∧ score.earned.compare .greater (.int 1) = .ok true ∧ score.earned = .float x ∧
      x.amount? = some earned ∧ -1 ≤ earned ∧ earned < 3 := by
  have sorted : (["a", "b", "x"].map (Json.writeText .ascii)).Pairwise (· ≤ ·) := by decide +kernel
  have sorted' : (["a", "b", "c"].map (Json.writeText .ascii)).Pairwise (· ≤ ·) := by decide +kernel
  obtain ⟨score, scored, other, more⟩ : Earns ["a", "b", "x"] ["a", "b", "c"] true 3 1 false .greater 1 :=
    earns_of_grade sorted sorted' (by decide +kernel)
  have worth : (setting (rule ["a", "b", "c"] true 3 1) "points" (.int 1)).number? = some (.int (3 : ℕ)) := rfl
  have costs : (setting (rule ["a", "b", "c"] true 3 1) "penalty" (.int 0)).number? = some (.int (1 : ℕ)) := rfl
  obtain ⟨given, wanted, x, earned, chosen, expected, correct, shape, stands, least, _, most⟩ :=
    choices_within_points rfl worth costs (by decide) (by decide) scored
  obtain rfl := Except.ok.inj ((sortedTexts_of_pairwise sorted).symm.trans chosen)
  obtain rfl := Except.ok.inj ((sortedTexts_of_pairwise sorted').symm.trans expected)
  have unrepeated : Unrepeated (["a", "b", "x"].map (Json.writeText .ascii)) (["a", "b", "c"].map (Json.writeText .ascii)) := by
    unfold Unrepeated
    decide +kernel
  obtain ⟨most, full⟩ := most unrepeated
  refine ⟨score, x, earned, scored, other, more, shape, stands, by simpa using least, lt_of_le_of_ne most fun equal => ?_⟩
  obtain same | ⟨_, dear⟩ := full (by decide) (by decide) equal
  · rw [correct.mpr same] at other
    cases other
  · exact absurd dear (by decide +kernel)

open Quiz in
/-- Wrong answers that cost nothing leave the points whole, and so does what rounding makes up for or a number cannot
hold. Amounts that no number holds are passed upwards and downwards. A right answer given again counts again. -/
theorem choices_beyond_points :
    Earns ["a", "b", "c"] ["a", "b"] true 2 0 false .greaterEqual 2 ∧
    Earns (.replicate 199 "a") (.replicate 200 "a") true 1 0 false .greaterEqual 1 ∧
    Earns (.replicate 40 "a" ++ ["b"]) (.replicate 40 "a") true 281474976710657 1 false .greaterEqual 281474976710657 ∧
    Earns ["a"] ["a"] false 360287970189643 0 true .greater 360287970189643 ∧
    Earns ["b"] ["a"] false 0 360287970189643 false .less (-360287970189643) ∧
    Earns ["a", "a", "a"] ["a", "b"] true 2 0 false .greater 2 := by
  refine ⟨?_, ?_, ?_, ?_, ?_, ?_⟩
  all_goals exact earns_of_grade (by decide +kernel) (by decide +kernel) (by decide +kernel)

end Scoring

end FormRules

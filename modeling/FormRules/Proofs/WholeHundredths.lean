import FormRules.Proofs.Agreement
import FormRules.Proofs.RoundedAmounts
import FormRules.Scoring.Score

/-! Points in whole hundredths. Rounding to hundredths keeps whole numbers and does not pass them, as long as
a number holds their hundredfold; what is short of a whole number by more than half a hundredth stays below it. -/

namespace FormRules

namespace Value

variable {first second value : Value} {a b n : Number}

theorem mul_of_number? (left : first.number? = some a) (right : second.number? = some b) :
    first.mul second = (a.mul b).map .number := by
  have numbers : first.mul second = onNumbers "*" Number.mul first second := by
    unfold mul
    split
    · cases left
    · cases left
    · rfl
  rw [numbers, onNumbers, left, right]

theorem sub_of_number? (left : first.number? = some a) (right : second.number? = some b) :
    first.sub second = (a.sub b).map .number := by
  rw [sub, onNumbers, left, right]

theorem div_of_number? (left : first.number? = some a) (right : second.number? = some b) :
    first.div second = (a.div b).map .number := by
  rw [div, onNumbers, left, right]

theorem neg_of_number? (counts : value.number? = some n) : value.neg = .ok (.number n.neg) := by
  rw [neg, counts]

theorem compare_of_number? (comparison : Comparison) (left : first.number? = some a) (right : second.number? = some b) :
    first.compare comparison second = .ok (comparison.numbers a b) := by
  cases first with
  | scalar s =>
    cases second with
    | scalar t =>
      have left : s.number? = some a := left
      have right : t.number? = some b := right
      rw [compare]
      unfold Scalar.compare
      simp only [left, right]
    | _ => cases right
  | _ => cases left

theorem isPositive_of_number? (counts : value.number? = some n) :
    value.isPositive = .ok (Comparison.greater.numbers n (.int 0)) :=
  compare_of_number? .greater counts rfl

end Value

namespace Scoring

open Number (Rounds Held)

/-- An amount in whole hundredths, a half going up. Every operation on the way is rounded. -/
def ToHundredths (exact rounded : ℚ) : Prop :=
  ∃ b c, Rounds (exact * 100) b ∧ Rounds (b + 1 / 2) c ∧ Rounds (⌊c⌋ / 100) rounded

section Hundredths

variable {exact rounded : ℚ}

/-- Hundredfold a whole number is held if that takes 53 bits, the factor of four aside. -/
theorem held_hundredfold {count : Int} (few : 25 * count.natAbs ≤ 2 ^ 53) : Held (count * 100) := by
  have held : Held ((25 * count : Int) * 2 ^ 3 / 2) := Number.held_of_small 3 (by rwa [Int.natAbs_mul])
  have same : ((25 * count : Int) * 2 ^ 3 / 2 : ℚ) = count * 100 := by
    push_cast
    ring
  rwa [same] at held

theorem held_hundredfold_nat {count : Nat} (few : 25 * count ≤ 2 ^ 53) : Held ((100 * count : ℕ) : ℚ) := by
  have held := @held_hundredfold count (by rwa [Int.natAbs_natCast])
  push_cast at held ⊢
  rwa [mul_comm]

theorem ToHundredths.ge (rounds : ToHundredths exact rounded) (count : Int) (few : 25 * count.natAbs ≤ 2 ^ 53)
    (least : count ≤ exact) : count ≤ rounded := by
  obtain ⟨b, c, scaled, shifted, divided⟩ := rounds
  have held := held_hundredfold few
  have below : count * 100 ≤ b := scaled.ge held (by linarith)
  have floor : count * 100 ≤ ⌊c⌋ := by
    refine Int.le_floor.mpr ?_
    push_cast
    exact shifted.ge held (by linarith)
  refine divided.ge (Number.held_int (by omega)) ?_
  rw [le_div_iff₀ (by norm_num)]
  exact_mod_cast floor

theorem ToHundredths.le (rounds : ToHundredths exact rounded) {count : Nat} (few : 25 * count ≤ 2 ^ 53)
    (most : exact ≤ count) : rounded ≤ count := by
  obtain ⟨b, c, scaled, shifted, divided⟩ := rounds
  have held := held_hundredfold_nat few
  have above : b ≤ (100 * count : ℕ) := scaled.le held (by push_cast; linarith)
  have less : c < (100 * count : ℕ) + 1 := shifted.lt_succ (by omega) held (by linarith)
  have floor : ⌊c⌋ ≤ 100 * count := by
    refine Int.lt_add_one_iff.mp (Int.floor_lt.mpr ?_)
    exact_mod_cast less
  refine divided.le (Number.held_nat (by omega)) ?_
  rw [div_le_iff₀ (by norm_num)]
  exact_mod_cast (mul_comm (count : Int) 100 ▸ floor)

theorem ToHundredths.lt (rounds : ToHundredths exact rounded) {points : Nat} {gap : ℚ} (some : 0 < points)
    (few : points ≤ 2 ^ 43) (small : gap ≤ 1 / 2) (wide : 2 * points / 2 ^ 53 + 3 / 2 ^ 100 ≤ gap)
    (short : exact ≤ points - 1 / 200 - gap) : rounded < points := by
  obtain ⟨b, c, scaled, shifted, divided⟩ := rounds
  have one : (1 : ℚ) ≤ points := by exact_mod_cast some
  have few : (points : ℚ) ≤ 2 ^ 43 := by exact_mod_cast few
  have above := scaled.le_add ((points - 1 / 200 - gap) * 100) (100 * points)
    (by linarith) (by linarith) (by linarith)
  have above := shifted.le_add ((points - 1 / 200 - gap) * 100 + points * 100 / 2 ^ 53 + 1 / 2 ^ 100 + 1 / 2)
    (100 * points) (by linarith) (by linarith) (by linarith)
  have less : c < (points * 100 : ℕ) := by
    push_cast
    linarith
  have floor : ⌊c⌋ ≤ (points * 100 : ℕ) - 1 := Int.le_sub_one_of_lt (Int.floor_lt.mpr (by exact_mod_cast less))
  have floor : (⌊c⌋ : ℚ) ≤ points * 100 - 1 := by exact_mod_cast floor
  have below := divided.le_add (points - 1 / 100) points (by linarith) (by linarith) (by linarith)
  linarith

end Hundredths

theorem amount?_half {b : ℚ} (stands : (Number.Binary64.ofRatio false 1 2).amount? = some b) : b = 1 / 2 := by
  have rounds := Number.Binary64.ofRatio_rounds (by decide) stands
  have held : Held (1 / 2) := by simpa using @Number.held_of_small 1 0 (by decide)
  simp only [Bool.false_eq_true, if_false, Nat.cast_one, Nat.cast_ofNat] at rounds
  exact rounds.eq held

theorem exists_of_roundHalfUp {value earned : Value} {n : Number} (counts : value.number? = some n)
    (ended : roundHalfUp value 2 = .ok earned) :
    ∃ a x e, n.amount? = some a ∧ earned = .float x ∧ x.amount? = some e ∧ ToHundredths a e := by
  have hundred : powerOfTen 2 = .int 100 := rfl
  unfold roundHalfUp at ended
  simp only [hundred] at ended
  rw [Value.mul_of_number? counts rfl] at ended
  obtain ⟨_, scaled, ended⟩ := Fault.of_bind_ok ended
  obtain ⟨product, multiplied, rfl⟩ := Fault.of_map_ok scaled
  obtain ⟨_, shifted, ended⟩ := Fault.of_bind_ok ended
  obtain ⟨sum, added, rfl⟩ := Fault.of_map_ok (show (product.add half).map Value.number = .ok _ from shifted)
  obtain ⟨whole, floored, ended⟩ := Fault.of_bind_ok ended
  rw [Value.div_of_number? (a := .int whole) (b := .int (100 : ℕ)) rfl rfl] at ended
  obtain ⟨quotient, divided, rfl⟩ := Fault.of_map_ok ended
  obtain ⟨x, e, rfl, stands, rounds⟩ := Number.exists_of_div (by decide) divided
  obtain ⟨c, shows, rfl⟩ := Number.exists_of_floor floored
  obtain ⟨m, b, h, left, near, right, rounds'⟩ := Number.exists_of_add added shows
  obtain ⟨a, amount, exact⟩ := Number.exists_of_mul (by decide) multiplied left
  refine ⟨a, x, e, amount, rfl, stands, b, c, ?_, amount?_half right ▸ rounds', rounds⟩
  obtain rfl | rounded := exact
  · exact near
  · rwa [near.eq rounded.held]

end Scoring

end FormRules

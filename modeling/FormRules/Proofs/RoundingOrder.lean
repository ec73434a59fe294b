import FormRules.Proofs.WholeForms
import FormRules.Proofs.WholeHundredths

/-! Rounding keeps the order of amounts: what it makes of an amount goes by the amount alone, and a larger one is not
rounded to less. A half below an even whole number is taken up, as a half above it is taken down, so that a half more
or less than a whole number does not matter once what is not whole is cut off. -/

namespace FormRules

namespace Number

theorem nearestEven_scaled (num den : Nat) {factor : Nat} (positive : 0 < factor) :
    nearestEven (num * factor) (den * factor) = nearestEven num den := by
  have low : 2 * (num % den * factor) < den * factor ↔ 2 * (num % den) < den := by
    rw [← Nat.mul_assoc]
    exact Nat.mul_lt_mul_right positive
  have high : den * factor < 2 * (num % den * factor) ↔ den < 2 * (num % den) := by
    rw [← Nat.mul_assoc]
    exact Nat.mul_lt_mul_right positive
  unfold nearestEven
  simp only [Nat.mul_div_mul_right _ _ positive, Nat.mul_mod_mul_right, low, high]

/-- What rounding makes of a quotient goes by the quotient alone. -/
theorem roundBits_scaled (num den : Nat) {factor : Nat} (positive : 0 < factor) :
    roundBits (num * factor) (den * factor) = roundBits num den := by
  unfold roundBits
  simp only [Nat.mul_div_mul_right _ _ positive, Nat.mul_right_comm den factor, nearestEven_scaled _ _ positive]

theorem roundBits_le_roundBits {num den num' den' : Nat} (positive : 0 < den) (positive' : 0 < den')
    (less : num * den' ≤ num' * den) : roundBits num den ≤ roundBits num' den' := by
  rw [← roundBits_scaled num den positive', ← roundBits_scaled num' den' positive, Nat.mul_comm den']
  exact roundBits_mono (Nat.mul_pos positive positive') less

theorem le_nearestEven_of_half {num den count : Nat} (positive : 0 < den)
    (half : 2 * count * den < 2 * num + den ∨ 2 * count * den = 2 * num + den ∧ count % 2 = 0) :
    count ≤ nearestEven num den := by
  by_cases above : count ≤ num / den
  · obtain equal | equal := nearestEven_eq_or num den <;> omega
  · have below : num < count * den := (Nat.div_lt_iff_lt_mul positive).mp (Nat.not_le.mp above)
    rw [Nat.mul_assoc] at half
    -- the quotient is short of the count by a half at most, so its whole part is the number before
    have whole : num / den + 1 = count := by
      refine Nat.le_antisymm (Nat.not_le.mp above) ?_
      rw [← Nat.add_div_right num positive, Nat.le_div_iff_mul_le positive]
      omega
    have parts := Nat.div_add_mod num den
    have count_eq : count * den = den * (num / den) + den := by rw [← whole, Nat.mul_comm, Nat.mul_succ]
    unfold nearestEven
    simp only
    generalize den * (num / den) = low at *
    split
    · omega
    · split
      · omega
      · split <;> omega

/-- Half a unit below an even count of units is at most half a step below the steps that this count makes, if a step is
a unit or more. -/
theorem le_nearestEven_of_steps {num den count steps power more : Nat} (positive : 0 < den) (even : count % 2 = 0)
    (shape : count * 2 ^ (power + 1) = 2 ^ (power + more + 1) * steps)
    (large : count * 2 ^ (power + 1) * den ≤ num + 2 ^ power * den) :
    steps ≤ nearestEven num (den * 2 ^ (power + more + 1)) := by
  refine le_nearestEven_of_half (Nat.mul_pos positive (Nat.two_pow_pos _)) ?_
  have twice : 2 * steps * (den * 2 ^ (power + more + 1)) ≤ 2 * num + den * 2 ^ (power + 1) := by
    calc 2 * steps * (den * 2 ^ (power + more + 1)) = 2 * (count * 2 ^ (power + 1) * den) := by
          rw [shape]
          ring
      _ ≤ 2 * (num + 2 ^ power * den) := Nat.mul_le_mul_left 2 large
      _ = _ := by ring
  rcases Nat.eq_zero_or_pos more with rfl | some
  · have same : steps = count := by
      refine Nat.eq_of_mul_eq_mul_left (Nat.two_pow_pos (power + 1)) ?_
      rw [Nat.mul_comm _ count, shape, Nat.add_zero]
    exact (Nat.lt_or_eq_of_le twice).imp_right fun equal => ⟨equal, same ▸ even⟩
  · refine .inl (Nat.lt_of_le_of_lt twice (Nat.add_lt_add_left (Nat.mul_lt_mul_of_pos_left ?_ positive) _))
    exact Nat.pow_lt_pow_right Nat.one_lt_two (by omega)

/-- A half below an even count of units is not rounded to the count before. -/
theorem lt_roundBits_of_half {num den count power : Nat} (positive : 0 < den) (even : count % 2 = 0)
    (fits : Fits (count * 2 ^ (power + 1))) (large : count * 2 ^ (power + 1) * den ≤ num + 2 ^ power * den) :
    count * 2 ^ (power + 1) < roundBits num den + 2 ^ (power + 1) := by
  have room : 2 ^ power < 2 ^ (power + 1) := Nat.pow_lt_pow_right Nat.one_lt_two (Nat.lt_succ_self power)
  by_cases fine : (num / den).log2 - 52 ≤ power
  · have steps : 2 ^ ((num / den).log2 - 52) ∣ count * 2 ^ (power + 1) - 2 ^ power :=
      Nat.dvd_sub (Nat.dvd_trans (Nat.pow_dvd_pow 2 (by omega)) (Nat.dvd_mul_left _ _)) (Nat.pow_dvd_pow 2 fine)
    have least := le_roundBits_of_dvd positive steps (by rw [Nat.sub_mul]; omega)
    omega
  by_cases whole : count * 2 ^ (power + 1) * den ≤ num
  · exact Nat.lt_of_le_of_lt (le_roundBits positive fits whole) (Nat.lt_add_of_pos_right (Nat.two_pow_pos _))
  · -- The step is the unit or more, so it divides the count of units, above which nothing is rounded down.
    have below : num / den ≤ count * 2 ^ (power + 1) :=
      Nat.div_le_of_le_mul (by rw [Nat.mul_comm]; exact Nat.le_of_not_le whole)
    obtain ⟨steps, shape⟩ := step_dvd fits below
    have least : count * 2 ^ (power + 1) ≤ roundBits num den := by
      show _ ≤ nearestEven num (den * 2 ^ ((num / den).log2 - 52)) * 2 ^ ((num / den).log2 - 52)
      obtain ⟨more, wide⟩ := Nat.exists_eq_add_of_lt (Nat.not_le.mp fine)
      rw [wide] at shape ⊢
      rw [shape, Nat.mul_comm]
      exact Nat.mul_le_mul_right _ (le_nearestEven_of_steps positive even shape large)
    exact Nat.lt_of_le_of_lt least (Nat.lt_add_of_pos_right (Nat.two_pow_pos _))

attribute [local irreducible] perOne overflow

namespace Rounds

variable {exact exact' rounded rounded' : ℚ}

theorem up_mono {num den num' den' : Nat} (positive : 0 < den) (positive' : 0 < den')
    (less : (num / den / perOne : ℚ) ≤ num' / den' / perOne) :
    (roundBits num den / perOne : ℚ) ≤ roundBits num' den' / perOne := by
  have above : (0 : ℚ) < den := by exact_mod_cast positive
  have above' : (0 : ℚ) < den' := by exact_mod_cast positive'
  rw [div_le_div_iff_of_pos_right perOne_above, div_le_div_iff₀ above above'] at less
  rw [div_le_div_iff_of_pos_right perOne_above]
  exact_mod_cast roundBits_le_roundBits positive positive' (by exact_mod_cast less)

theorem mono (rounds : Rounds exact rounded) (rounds' : Rounds exact' rounded') (less : exact ≤ exact') :
    rounded ≤ rounded' := by
  cases rounds with
  | up positive =>
    cases rounds' with
    | up positive' => exact up_mono positive positive' less
    | @down num' den' positive' =>
      -- an amount that is not negative is at most one that is not positive, so both are nothing
      have some : (0 : ℚ) ≤ num' / den' / perOne := div_nonneg (by positivity) perOne_above.le
      have low := up_le positive held_zero (less.trans (neg_nonpos.mpr some))
      have high := Rounds.ge (.down positive') held_zero (le_trans (div_nonneg (by positivity) perOne_above.le) less)
      exact le_trans low high
  | down positive =>
    cases rounds' with
    | up positive' =>
      refine le_trans (neg_nonpos.mpr ?_) ?_ <;> exact div_nonneg (Nat.cast_nonneg _) perOne_above.le
    | down positive' => exact neg_le_neg (up_mono positive' positive (neg_le_neg_iff.mp less))

/-- An amount is rounded in one way only. -/
theorem unique (rounds : Rounds exact rounded) (rounds' : Rounds exact rounded') : rounded = rounded' :=
  le_antisymm (rounds.mono rounds' le_rfl) (rounds'.mono rounds le_rfl)

/-- A half below an even whole number is not rounded to the one before. -/
theorem pred_lt (rounds : Rounds exact rounded) {count : Nat} (even : count % 2 = 0) (held : Held count)
    (least : count - 1 / 2 ≤ exact) : count - 1 < rounded := by
  cases rounds with
  | @up num den positive =>
    obtain ⟨power, unit, fits⟩ := held.exists_units
    have above : (0 : ℚ) < den := by exact_mod_cast positive
    have large : count * 2 ^ (power + 1) * den ≤ num + 2 ^ power * den := by
      rw [le_div_iff₀ perOne_above, le_div_iff₀ above, unit] at least
      have : (count * 2 ^ (power + 1) * den : ℚ) ≤ num + 2 ^ power * den := by
        rw [pow_succ] at least ⊢
        linarith
      exact_mod_cast this
    rw [lt_div_iff₀ perOne_above, unit, sub_mul, one_mul, sub_lt_iff_lt_add]
    exact_mod_cast lt_roundBits_of_half positive even fits large
  | @down num den positive =>
    have some : (0 : ℚ) ≤ num / den / perOne := div_nonneg (by positivity) perOne_above.le
    have none : count = 0 := by
      have : (count : ℚ) < 1 := by linarith
      exact_mod_cast Nat.lt_one_iff.mp (by exact_mod_cast this)
    have half : Held (-1 / 2) := by simpa using @held_of_small (-1) 0 (by decide)
    rw [none, Nat.cast_zero] at least ⊢
    have near : -1 / 2 ≤ -(roundBits num den / perOne : ℚ) := Rounds.ge (.down positive) half (by linarith)
    linarith

end Rounds

theorem Binary64.Within.exists_amount? {x : Binary64} {bits : Nat} (within : x.Within bits) :
    ∃ amount, x.amount? = some amount := by
  cases within
  exact ⟨_, rfl⟩

theorem mul_float (first : Number) (y : Binary64) :
    first.mul (.float y) = first.toFloat.map fun x => .float (x.mul y) := by
  cases first with
  | float => rfl
  | int m =>
    simp only [Number.mul, combine]
    generalize (Number.int m).toFloat = read
    cases read <;> rfl

/-- The product with a floating point number is that of the factor's floating point form. -/
theorem exists_of_mul_float {first n : Number} {y : Binary64} {amount : ℚ} (multiplied : first.mul (.float y) = .ok n)
    (stands : n.amount? = some amount) :
    ∃ a a' b, first.amount? = some a ∧ Rounds a a' ∧ y.amount? = some b ∧ Rounds (a' * b) amount := by
  rw [mul_float] at multiplied
  obtain ⟨x, reads, rfl⟩ := Fault.of_map_ok multiplied
  obtain ⟨a', b, left, right, rounds⟩ := Binary64.exists_of_mul stands
  obtain ⟨a, exact, near⟩ := exists_of_toFloat reads left
  exact ⟨a, a', b, exact, near, right, rounds⟩

/-- A share of an amount that is well short of the whole is rounded to no more than the whole, though the amount may be
rounded up first. -/
theorem share_le {n : Number} {a a' share amount : ℚ} (stands : n.amount? = some a) (near : Rounds a a') (least : 0 ≤ a)
    (short : share ≤ 7 / 8) (rounds : Rounds (a' * share) amount) : amount ≤ a := by
  have some : 0 ≤ a' := near.ge held_zero least
  have less : a' * share ≤ a' * (7 / 8) := mul_le_mul_of_nonneg_left short some
  cases n with
  | float x =>
    have held := Binary64.held_of_amount? stands
    rw [near.eq held] at less rounds
    exact rounds.le held (by linarith)
  | int count =>
    cases stands
    rcases (Int.cast_nonneg_iff.mp least).eq_or_lt with rfl | positive
    · rw [Int.cast_zero] at near ⊢
      rw [near.eq held_zero, zero_mul] at rounds
      exact (rounds.eq held_zero).le
    · have one : (1 : ℚ) ≤ count := by exact_mod_cast positive
      have above := near.le_add count count (by linarith) le_rfl le_rfl
      have above' := rounds.le_add (a' * (7 / 8)) (2 * count) (by linarith) less (by linarith)
      linarith

end Number

namespace Scoring

open Number (Rounds)

theorem ToHundredths.mono {exact exact' rounded rounded' : ℚ} (rounds : ToHundredths exact rounded)
    (rounds' : ToHundredths exact' rounded') (less : exact ≤ exact') : rounded ≤ rounded' := by
  obtain ⟨b, c, scaled, shifted, divided⟩ := rounds
  obtain ⟨b', c', scaled', shifted', divided'⟩ := rounds'
  have scales : b ≤ b' := scaled.mono scaled' (by linarith)
  have shifts : c ≤ c' := shifted.mono shifted' (by linarith)
  have floors : (⌊c⌋ : ℚ) ≤ ⌊c'⌋ := by exact_mod_cast Int.floor_le_floor shifts
  exact divided.mono divided' (by linarith)

theorem ToHundredths.le_neg {exact rounded : ℚ} (rounds : ToHundredths exact rounded) {count : Nat}
    (few : 25 * count ≤ 2 ^ 53) (most : exact ≤ -count) : rounded ≤ -count := by
  obtain ⟨b, c, scaled, shifted, divided⟩ := rounds
  have held := held_hundredfold_nat few
  have above : b ≤ -(100 * count : ℕ) := scaled.le held.neg (by push_cast; linarith)
  have less : (100 * count : ℕ) - 1 < -c := shifted.neg.pred_lt (by omega) held (by linarith)
  have floor : ⌊c⌋ ≤ -(100 * count : ℕ) := by
    refine Int.lt_add_one_iff.mp (Int.floor_lt.mpr ?_)
    push_cast at less ⊢
    linarith
  refine divided.le (Number.held_nat (by omega)).neg ?_
  rw [div_le_iff₀ (by norm_num)]
  have floor : (⌊c⌋ : ℚ) ≤ -(100 * count : ℕ) := by exact_mod_cast floor
  push_cast at floor
  linarith

/-- Whole numbers are kept, as long as their hundredfold takes 53 bits. -/
theorem ToHundredths.eq {count : Int} {rounded : ℚ} (rounds : ToHundredths count rounded)
    (few : 25 * count.natAbs ≤ 2 ^ 53) : rounded = count := by
  refine le_antisymm ?_ (rounds.ge count few le_rfl)
  rcases Int.eq_nat_or_neg count with ⟨size, rfl | rfl⟩
  · rw [Int.natAbs_natCast] at few
    exact_mod_cast rounds.le few (by simp)
  · rw [Int.natAbs_neg, Int.natAbs_natCast] at few
    exact_mod_cast rounds.le_neg few (by simp)

end Scoring

end FormRules

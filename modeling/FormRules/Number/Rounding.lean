/-!
Rounding to the nearest, a tie going to the even neighbour: of a quotient to a whole number, and of
a quotient to 53 significant bits. Main statement: a rounded quotient fits in 53 significant bits.
-/

namespace FormRules.Number

attribute [local instance] instPowNat

/-- The whole number nearest to `num / den`. -/
def nearestEven (num den : Nat) : Nat :=
  let low := num / den
  let rest := num % den
  if 2 * rest < den then low
  else if den < 2 * rest then low + 1
  else if low % 2 = 0 then low
  else low + 1

theorem nearestEven_eq_or (num den : Nat) :
    nearestEven num den = num / den ∨ nearestEven num den = num / den + 1 := by
  unfold nearestEven
  dsimp only
  split
  · exact .inl rfl
  · split
    · exact .inr rfl
    · split
      · exact .inl rfl
      · exact .inr rfl

theorem nearestEven_mul_right (count den : Nat) (positive : 0 < den) :
    nearestEven (count * den) den = count := by
  simp [nearestEven, Nat.mul_mod_left, Nat.mul_div_cancel _ positive, positive]

/-- Whether 53 significant bits can hold a whole number. -/
def Fits (units : Nat) : Prop := Nat.pow 2 (units.log2 - 52) ∣ units

instance (units : Nat) : Decidable (Fits units) :=
  inferInstanceAs (Decidable (Nat.pow 2 (units.log2 - 52) ∣ units))

/-- A multiple of a power of two fits when its quotient takes at most 53 bits. -/
theorem fits_mul_pow {count power : Nat} (small : count ≤ Nat.pow 2 53) :
    Fits (count * Nat.pow 2 power) := by
  have small : count ≤ 2 ^ 53 := small
  show 2 ^ ((count * 2 ^ power).log2 - 52) ∣ count * 2 ^ power
  by_cases nothing : count = 0
  · subst nothing
    simp
  have above : count * 2 ^ power ≠ 0 :=
    Nat.mul_ne_zero nothing (Nat.pos_iff_ne_zero.1 (Nat.two_pow_pos power))
  by_cases full : count = 2 ^ 53
  · subst full
    rw [← Nat.pow_add, Nat.log2_two_pow]
    exact Nat.pow_dvd_pow 2 (by omega)
  · have bits : (count * 2 ^ power).log2 < 53 + power := by
      refine (Nat.log2_lt above).2 ?_
      rw [Nat.pow_add]
      exact Nat.mul_lt_mul_of_pos_right (by omega) (Nat.two_pow_pos power)
    exact Nat.dvd_trans (Nat.pow_dvd_pow 2 (by omega)) (Nat.dvd_mul_left _ _)

/-- `num / den` rounded to 53 significant bits, and never finer than a whole number. -/
def roundBits (num den : Nat) : Nat :=
  let step := Nat.pow 2 ((num / den).log2 - 52)
  nearestEven num (den * step) * step

theorem fits_roundBits (num den : Nat) : Fits (roundBits num den) := by
  refine fits_mul_pow (show nearestEven num (den * 2 ^ ((num / den).log2 - 52)) ≤ 2 ^ 53 from ?_)
  have quotient : num / (den * 2 ^ ((num / den).log2 - 52)) < 2 ^ 53 := by
    rw [← Nat.div_div_eq_div_mul]
    refine (Nat.div_lt_iff_lt_mul (Nat.two_pow_pos _)).2 ?_
    rw [← Nat.pow_add]
    exact Nat.lt_of_lt_of_le Nat.lt_log2_self (Nat.pow_le_pow_right (by decide) (by omega))
  cases nearestEven_eq_or num (den * 2 ^ ((num / den).log2 - 52)) <;> omega

/-- A whole number that fits is its own rounding. -/
theorem roundBits_one {units : Nat} (fits : Fits units) : roundBits units 1 = units := by
  obtain ⟨count, shape⟩ := fits
  simp only [roundBits, Nat.div_one, Nat.one_mul]
  generalize Nat.pow 2 (units.log2 - 52) = step at shape ⊢
  by_cases nothing : step = 0
  · simp_all
  · rw [shape, Nat.mul_comm step count, nearestEven_mul_right _ _ (Nat.pos_of_ne_zero nothing)]

end FormRules.Number

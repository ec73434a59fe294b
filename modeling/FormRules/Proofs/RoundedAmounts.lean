import FormRules.Proofs.NumberRange
import FormRules.Proofs.ShortestDigits
import Mathlib.Data.Nat.Cast.Order.Field
import Mathlib.Data.Rat.Floor

/-! The amounts that numbers stand for, and what rounding makes of an amount: it strays by a half of the last of 53
bits at most, it does not pass an amount that a number stands for, and it takes a half above an even whole number
down. A sum, product or quotient of finite numbers is the exact one, rounded. -/

namespace FormRules

namespace Number

theorem nearestEven_le_of_half {num den count : Nat} (positive : 0 < den)
    (half : 2 * num < (2 * count + 1) * den ∨ 2 * num = (2 * count + 1) * den ∧ count % 2 = 0) :
    nearestEven num den ≤ count := by
  have spread : (2 * count + 1) * den = 2 * (count * den) + den := by ring
  rw [spread] at half
  by_cases less : num / den < count
  · obtain equal | equal := nearestEven_eq_or num den <;> omega
  · have least : count * den ≤ num := (Nat.le_div_iff_mul_le positive).mp (Nat.not_lt.mp less)
    have whole : num / den = count := by
      refine Nat.le_antisymm ?_ (Nat.not_lt.mp less)
      refine Nat.lt_succ_iff.mp ((Nat.div_lt_iff_lt_mul positive).mpr ?_)
      rw [Nat.succ_mul]
      omega
    have parts := Nat.div_add_mod num den
    rw [whole, Nat.mul_comm] at parts
    unfold nearestEven
    simp only [whole]
    generalize count * den = low at *
    split
    · omega
    · split
      · omega
      · split <;> omega

/-- What is less than one unit above a count of units has no larger leading bit than the count. -/
theorem two_pow_log2_le {quotient count power : Nat} (wide : power < quotient.log2)
    (reach : quotient < (count + 1) * 2 ^ (power + 1)) : 2 ^ quotient.log2 ≤ count * 2 ^ (power + 1) := by
  have nothing : quotient ≠ 0 := by
    rintro rfl
    exact absurd wide (by simp)
  have split : 2 ^ quotient.log2 = 2 ^ (quotient.log2 - (power + 1)) * 2 ^ (power + 1) := by
    rw [← Nat.pow_add, Nat.sub_add_cancel wide]
  have below := Nat.lt_of_le_of_lt (Nat.log2_self_le nothing) reach
  rw [split] at below ⊢
  exact Nat.mul_le_mul_right _ (Nat.lt_succ_iff.mp (Nat.lt_of_mul_lt_mul_right below))

/-- Half a unit above an even count of units is at most half a step above the steps that this count makes, if a step is
a unit or more. -/
theorem nearestEven_le_of_steps {num den count steps power more : Nat} (positive : 0 < den) (even : count % 2 = 0)
    (shape : count * 2 ^ (power + 1) = 2 ^ (power + more + 1) * steps)
    (small : num ≤ (count * 2 ^ (power + 1) + 2 ^ power) * den) :
    nearestEven num (den * 2 ^ (power + more + 1)) ≤ steps := by
  refine nearestEven_le_of_half (Nat.mul_pos positive (Nat.two_pow_pos _)) ?_
  have twice : 2 * num ≤ (2 * steps * 2 ^ (power + more + 1) + 2 ^ (power + 1)) * den := by
    calc 2 * num ≤ 2 * ((2 ^ (power + more + 1) * steps + 2 ^ power) * den) := by
          rw [← shape]
          exact Nat.mul_le_mul_left 2 small
      _ = _ := by ring
  have target : (2 * steps + 1) * (den * 2 ^ (power + more + 1)) =
      (2 * steps * 2 ^ (power + more + 1) + 2 ^ (power + more + 1)) * den := by ring
  rw [target]
  rcases Nat.eq_zero_or_pos more with rfl | some
  · have same : steps = count := by
      refine Nat.eq_of_mul_eq_mul_left (Nat.two_pow_pos (power + 1)) ?_
      rw [Nat.mul_comm _ count, shape, Nat.add_zero]
    exact (Nat.lt_or_eq_of_le twice).imp_right fun equal => ⟨equal, same ▸ even⟩
  · refine .inl (Nat.lt_of_le_of_lt twice (Nat.mul_lt_mul_of_pos_right ?_ positive))
    exact Nat.add_lt_add_left (Nat.pow_lt_pow_right Nat.one_lt_two (by omega)) _

/-- A half above an even count of units is not rounded to the next count. -/
theorem roundBits_lt_of_half {num den count power : Nat} (positive : 0 < den) (even : count % 2 = 0)
    (fits : Fits (count * 2 ^ (power + 1))) (small : num ≤ (count * 2 ^ (power + 1) + 2 ^ power) * den) :
    roundBits num den < (count + 1) * 2 ^ (power + 1) := by
  have room : count * 2 ^ (power + 1) + 2 ^ power < (count + 1) * 2 ^ (power + 1) := by
    have := Nat.two_pow_pos power
    rw [Nat.succ_mul, Nat.pow_succ]
    omega
  by_cases fine : (num / den).log2 - 52 ≤ power
  · have steps : 2 ^ ((num / den).log2 - 52) ∣ count * 2 ^ (power + 1) + 2 ^ power :=
      Nat.dvd_add (Nat.dvd_trans (Nat.pow_dvd_pow 2 (by omega)) (Nat.dvd_mul_left _ _)) (Nat.pow_dvd_pow 2 fine)
    exact Nat.lt_of_le_of_lt (roundBits_le_of_dvd positive steps small) room
  · -- The step is the unit or more, so it divides the count of units, below which nothing is rounded up.
    have reach : num / den < (count + 1) * 2 ^ (power + 1) :=
      Nat.lt_of_le_of_lt (Nat.div_le_of_le_mul (by rwa [Nat.mul_comm])) room
    have leading : 2 ^ (num / den).log2 ≤ count * 2 ^ (power + 1) := two_pow_log2_le (by omega) reach
    have above : count * 2 ^ (power + 1) ≠ 0 := Nat.ne_of_gt (Nat.lt_of_lt_of_le (Nat.two_pow_pos _) leading)
    have bits : (num / den).log2 ≤ (count * 2 ^ (power + 1)).log2 := (Nat.le_log2 above).mpr leading
    obtain ⟨steps, shape⟩ := Nat.dvd_trans (Nat.pow_dvd_pow 2 (by omega : (num / den).log2 - 52 ≤ _ - 52)) fits
    show nearestEven num (den * 2 ^ ((num / den).log2 - 52)) * 2 ^ ((num / den).log2 - 52) < _
    obtain ⟨more, wide⟩ := Nat.exists_eq_add_of_lt (Nat.not_le.mp fine)
    rw [wide] at shape ⊢
    calc _ ≤ steps * 2 ^ (power + more + 1) := Nat.mul_le_mul_right _ (nearestEven_le_of_steps positive even shape small)
      _ = count * 2 ^ (power + 1) := by rw [shape, Nat.mul_comm]
      _ < _ := Nat.lt_of_le_of_lt (Nat.le_add_right _ _) room

/-- The last of 53 bits weighs as much as a share of the quotient, and no bit weighs less than one unit. -/
theorem roundBits_near (num : Nat) {den : Nat} (positive : 0 < den) :
    |(roundBits num den : ℚ) - num / den| ≤ num / den / 2 ^ 53 + 1 / 2 := by
  have above : (0 : ℚ) < den := by exact_mod_cast positive
  have step : (0 : ℚ) < 2 ^ ((num / den).log2 - 52) := by positivity
  have near := nearestEven_near num (Nat.mul_pos positive (Nat.two_pow_pos ((num / den).log2 - 52)))
  have weight : (2 : ℚ) ^ ((num / den).log2 - 52) / 2 ≤ num / den / 2 ^ 53 + 1 / 2 := by
    have some : (0 : ℚ) ≤ num / den := by positivity
    by_cases fine : (num / den).log2 - 52 = 0
    · rw [fine, pow_zero]
      have : (0 : ℚ) ≤ num / den / 2 ^ 53 := by positivity
      linarith
    · have nothing : num / den ≠ 0 := fun none => by simp [none] at fine
      have leading : (2 : ℚ) ^ (num / den).log2 ≤ num / den := by
        refine le_trans ?_ Nat.cast_div_le
        exact_mod_cast Nat.log2_self_le nothing
      have split : (2 : ℚ) ^ (num / den).log2 = 2 ^ ((num / den).log2 - 52) * 2 ^ 52 := by
        rw [← pow_add, Nat.sub_add_cancel (by omega)]
      rw [split] at leading
      linarith
  refine le_trans ?_ weight
  have counted : (roundBits num den : ℚ) =
      nearestEven num (den * 2 ^ ((num / den).log2 - 52)) * 2 ^ ((num / den).log2 - 52) := by
    show ((nearestEven num (den * 2 ^ ((num / den).log2 - 52)) * 2 ^ ((num / den).log2 - 52) : ℕ) : ℚ) = _
    push_cast
    rfl
  rw [counted]
  push_cast at near
  generalize (2 : ℚ) ^ ((num / den).log2 - 52) = size at *
  generalize (nearestEven _ _ : ℚ) = nearest at *
  have scaled : nearest * size - num / den = (nearest - num / (den * size)) * size := by
    field_simp
  rw [scaled, abs_mul, abs_of_pos step]
  linarith [mul_le_mul_of_nonneg_right near step.le]

theorem exists_perOne : ∃ power, 99 ≤ power ∧ perOne = 2 ^ (power + 1) := by
  obtain ⟨power, same, large⟩ : ∃ power, 1074 = power + 1 ∧ 99 ≤ power := ⟨1073, rfl, by decide⟩
  unfold perOne
  rw [same]
  exact ⟨power, large, rfl⟩

attribute [local irreducible] perOne overflow

theorem perOne_above : (0 : ℚ) < perOne := by exact_mod_cast perOne_pos

/-- The least unit is next to nothing. -/
theorem half_unit_le : (1 / 2 / perOne : ℚ) ≤ 1 / 2 ^ 100 := by
  obtain ⟨power, large, one⟩ := exists_perOne
  have many : (2 : ℚ) ^ 100 ≤ perOne := by
    rw [one]
    exact_mod_cast Nat.pow_le_pow_right Nat.two_pos (by omega)
  rw [div_div]
  exact one_div_le_one_div_of_le (by positivity) (by linarith)

/-- An amount that a number of 53 bits stands for. -/
def Held (amount : ℚ) : Prop := ∃ units : Int, Fits units.natAbs ∧ amount = units / perOne

theorem Held.neg {amount : ℚ} (held : Held amount) : Held (-amount) := by
  obtain ⟨units, fits, rfl⟩ := held
  refine ⟨-units, by rwa [Int.natAbs_neg], ?_⟩
  push_cast
  ring

/-- What takes 53 bits is held, whole numbers and halves among it. -/
theorem held_of_small {count : Int} (power : Nat) (small : count.natAbs ≤ 2 ^ 53) : Held (count * 2 ^ power / 2) := by
  obtain ⟨more, _, one⟩ := exists_perOne
  refine ⟨count * 2 ^ (power + more), ?_, ?_⟩
  · rw [Int.natAbs_mul, Int.natAbs_pow]
    exact fits_mul_pow small
  · rw [one]
    push_cast
    field_simp
    ring

theorem held_int {count : Int} (small : count.natAbs ≤ 2 ^ 53) : Held count := by
  have held := held_of_small 1 small
  rwa [pow_one, mul_div_cancel_right₀ _ two_ne_zero] at held

theorem held_nat {count : Nat} (small : count ≤ 2 ^ 53) : Held count := @held_int count (by rwa [Int.natAbs_natCast])

theorem held_zero : Held 0 := by simpa using @held_nat 0 (by decide)

/-- How a whole number that is held is counted in least units, of which an even number makes one. -/
theorem Held.exists_units {count : Nat} (held : Held count) :
    ∃ power, (perOne : ℚ) = 2 ^ (power + 1) ∧ Fits (count * 2 ^ (power + 1)) := by
  obtain ⟨units, fits, shape⟩ := held
  obtain ⟨power, _, one⟩ := exists_perOne
  have unit : (perOne : ℚ) = 2 ^ (power + 1) := by rw [one]; push_cast; rfl
  have whole : units = (count * 2 ^ (power + 1) : ℕ) := by
    rw [eq_div_iff perOne_above.ne', unit] at shape
    exact_mod_cast shape.symm
  rw [whole, Int.natAbs_natCast] at fits
  exact ⟨power, unit, fits⟩

/-- What rounding makes of an amount; a magnitude is rounded alike with either sign. -/
inductive Rounds : ℚ → ℚ → Prop where
  | up {num den : Nat} (positive : 0 < den) : Rounds (num / den / perOne) (roundBits num den / perOne)
  | down {num den : Nat} (positive : 0 < den) : Rounds (-(num / den / perOne)) (-(roundBits num den / perOne))

namespace Rounds

variable {exact rounded amount : ℚ}

theorem near (rounds : Rounds exact rounded) : |rounded - exact| ≤ |exact| / 2 ^ 53 + 1 / 2 / perOne := by
  have bound {num den : Nat} (positive : 0 < den) :
      |(roundBits num den / perOne : ℚ) - num / den / perOne| ≤ |(num / den / perOne : ℚ)| / 2 ^ 53 + 1 / 2 / perOne := by
    have some : (0 : ℚ) ≤ num / den / perOne := div_nonneg (by positivity) perOne_above.le
    rw [← sub_div, abs_div, abs_of_pos perOne_above, abs_of_nonneg some, div_right_comm, ← add_div]
    exact div_le_div_of_nonneg_right (roundBits_near num positive) perOne_above.le
  cases rounds with
  | up positive => exact bound positive
  | down positive =>
    rw [abs_neg, neg_sub_neg, abs_sub_comm]
    exact bound positive

theorem neg (rounds : Rounds exact rounded) : Rounds (-exact) (-rounded) := by
  cases rounds with
  | up positive => exact .down positive
  | down positive =>
    rw [neg_neg, neg_neg]
    exact .up positive

theorem up_le {num den : Nat} (positive : 0 < den) (held : Held amount) (least : num / den / perOne ≤ amount) :
    roundBits num den / perOne ≤ amount := by
  obtain ⟨units, fits, rfl⟩ := held
  have above : (0 : ℚ) < den := by exact_mod_cast positive
  have least : (num / den : ℚ) ≤ units := (div_le_div_iff_of_pos_right perOne_above).mp least
  have some : (0 : ℚ) ≤ units := le_trans (by positivity) least
  obtain ⟨count, rfl⟩ := Int.eq_ofNat_of_zero_le (by exact_mod_cast some : 0 ≤ units)
  rw [div_le_iff₀ above] at least
  have small : num ≤ count * den := by exact_mod_cast least
  have rounded := roundBits_le positive fits small
  exact (div_le_div_iff_of_pos_right perOne_above).mpr (by exact_mod_cast rounded)

theorem le_up {num den : Nat} (positive : 0 < den) (held : Held amount) (most : amount ≤ num / den / perOne) :
    amount ≤ roundBits num den / perOne := by
  obtain ⟨units, fits, rfl⟩ := held
  refine (div_le_div_iff_of_pos_right perOne_above).mpr ?_
  rcases Int.lt_or_le units 0 with below | some
  · exact le_trans (by exact_mod_cast below.le) (Nat.cast_nonneg _)
  · have above : (0 : ℚ) < den := by exact_mod_cast positive
    obtain ⟨count, rfl⟩ := Int.eq_ofNat_of_zero_le some
    have most := (div_le_div_iff_of_pos_right perOne_above).mp most
    rw [le_div_iff₀ above] at most
    have large : count * den ≤ num := by exact_mod_cast most
    exact_mod_cast le_roundBits positive fits large

/-- Rounding does not pass an amount that is held. -/
theorem le (rounds : Rounds exact rounded) (held : Held amount) (most : exact ≤ amount) : rounded ≤ amount := by
  cases rounds with
  | up positive => exact up_le positive held most
  | down positive => exact neg_le.mp (le_up positive held.neg (neg_le.mp most))

theorem ge (rounds : Rounds exact rounded) (held : Held amount) (least : amount ≤ exact) : amount ≤ rounded :=
  neg_le_neg_iff.mp (rounds.neg.le held.neg (neg_le_neg least))

/-- Rounding adds a small share of the amount, and next to nothing where there is little to share. -/
theorem le_add (rounds : Rounds exact rounded) (most limit : ℚ) (some : 0 ≤ most) (above : exact ≤ most)
    (wide : most ≤ limit) : rounded ≤ most + limit / 2 ^ 53 + 1 / 2 ^ 100 := by
  rcases le_or_gt exact 0 with none | positive
  · have : rounded ≤ 0 := rounds.le held_zero none
    linarith
  · have near := (abs_le.mp rounds.near).2
    rw [abs_of_pos positive] at near
    linarith [half_unit_le]

/-- Rounding takes a small share of an amount, and next to nothing where there is little to share. -/
theorem sub_le (rounds : Rounds exact rounded) (some : 0 ≤ exact) :
    exact - exact / 2 ^ 53 - 1 / 2 ^ 100 ≤ rounded := by
  have near := (abs_le.mp rounds.near).1
  rw [abs_of_nonneg some] at near
  linarith [half_unit_le]

theorem eq (rounds : Rounds exact rounded) (held : Held exact) : rounded = exact :=
  le_antisymm (rounds.le held le_rfl) (rounds.ge held le_rfl)

theorem held (rounds : Rounds exact rounded) : Held rounded := by
  cases rounds with
  | up positive => exact ⟨roundBits _ _, fits_roundBits _ _, rfl⟩
  | down positive => exact Held.neg ⟨roundBits _ _, fits_roundBits _ _, rfl⟩

theorem refl (held : Held amount) : Rounds amount amount := by
  obtain ⟨units, fits, rfl⟩ := held
  have whole := roundBits_one fits
  rcases Int.eq_nat_or_neg units with ⟨count, rfl | rfl⟩
  · have rounds := @up count 1 Nat.one_pos
    rw [Int.natAbs_natCast] at whole
    rwa [whole, Nat.cast_one, div_one] at rounds
  · have rounds := @down count 1 Nat.one_pos
    rw [Int.natAbs_neg, Int.natAbs_natCast] at whole
    rw [whole, Nat.cast_one, div_one] at rounds
    push_cast
    rwa [neg_div]

/-- A half above an even whole number is not rounded to the next one. -/
theorem lt_succ (rounds : Rounds exact rounded) {count : Nat} (even : count % 2 = 0) (held : Held count)
    (most : exact ≤ count + 1 / 2) : rounded < count + 1 := by
  cases rounds with
  | @up num den positive =>
    obtain ⟨power, unit, fits⟩ := held.exists_units
    have above : (0 : ℚ) < den := by exact_mod_cast positive
    have small : num ≤ (count * 2 ^ (power + 1) + 2 ^ power) * den := by
      rw [div_le_iff₀ perOne_above, div_le_iff₀ above, unit] at most
      have : (num : ℚ) ≤ (count * 2 ^ (power + 1) + 2 ^ power) * den := by
        refine most.trans_eq ?_
        rw [pow_succ]
        ring
      exact_mod_cast this
    rw [div_lt_iff₀ perOne_above, unit]
    exact_mod_cast roundBits_lt_of_half positive even fits small
  | down positive =>
    refine lt_of_le_of_lt (neg_nonpos.mpr (div_nonneg (Nat.cast_nonneg _) perOne_above.le)) ?_
    exact add_pos_of_nonneg_of_pos (Nat.cast_nonneg count) one_pos

end Rounds

/-- The sign and the magnitude of a whole number. -/
theorem signed_natAbs (n : Int) : (if decide (n < 0) then -(n.natAbs : ℚ) else n.natAbs) = n := by
  rw [Nat.cast_natAbs, Int.cast_abs]
  rcases Int.lt_or_le n 0 with below | above
  · rw [if_pos (decide_eq_true below), abs_of_neg (by exact_mod_cast below), neg_neg]
  · rw [if_neg (by simpa using above), abs_of_nonneg (by exact_mod_cast above)]

namespace Binary64

/-- The amount that a finite number stands for. -/
def amount? : Binary64 → Option ℚ
  | .finite negative magnitude => some (signed negative magnitude / perOne)
  | _ => none

variable {x y : Binary64} {amount : ℚ}

theorem held_of_amount? (stands : x.amount? = some amount) : Held amount := by
  cases x with
  | nan => cases stands
  | infinite => cases stands
  | finite negative magnitude =>
    cases stands
    refine ⟨_, ?_, rfl⟩
    rw [natAbs_signed]
    exact magnitude.fits

theorem ofUnits_ne_nan (negative : Bool) (num den : Nat) : ofUnits negative num den ≠ .nan := by
  unfold ofUnits
  split <;> exact Binary64.noConfusion

theorem ofUnits_rounds {negative : Bool} {num den : Nat} (positive : 0 < den)
    (stands : (ofUnits negative num den).amount? = some amount) :
    Rounds ((if negative then -(num : ℚ) else num) / den / perOne) amount := by
  unfold ofUnits at stands
  split at stands
  next =>
    cases stands
    cases negative with
    | false => exact .up positive
    | true =>
      simp only [signed, if_true]
      push_cast
      rw [neg_div, neg_div, neg_div]
      exact .down positive
  next => cases stands

theorem ofRatio_rounds {negative : Bool} {num den : Nat} (positive : 0 < den)
    (stands : (ofRatio negative num den).amount? = some amount) :
    Rounds ((if negative then -(num : ℚ) else num) / den) amount := by
  have rounds := ofUnits_rounds positive stands
  have one := perOne_above
  have same : ((if negative then -((num * perOne : ℕ) : ℚ) else (num * perOne : ℕ)) / den / perOne) =
      (if negative then -(num : ℚ) else num) / den := by
    push_cast
    cases negative with
    | false =>
      rw [if_neg Bool.false_ne_true, if_neg Bool.false_ne_true]
      field_simp
    | true =>
      rw [if_pos rfl, if_pos rfl]
      field_simp
  rwa [same] at rounds

theorem ofInt?_rounds {n : Int} (found : ofInt? n = some x) (stands : x.amount? = some amount) : Rounds n amount := by
  unfold ofInt? at found
  cases near : ofRatio (n < 0) n.natAbs 1 with
  | nan =>
    rw [near] at found
    cases found
  | infinite =>
    rw [near] at found
    cases found
  | finite =>
    rw [near] at found
    cases found
    have rounds := ofRatio_rounds Nat.one_pos (near ▸ stands)
    rwa [signed_natAbs, Nat.cast_one, div_one] at rounds

theorem exists_of_add (stands : (x.add y).amount? = some amount) :
    ∃ a b, x.amount? = some a ∧ y.amount? = some b ∧ Rounds (a + b) amount := by
  cases x with
  | nan => cases stands
  | infinite =>
    cases y with
    | nan => cases stands
    | infinite =>
      simp only [add] at stands
      split at stands <;> cases stands
    | finite => cases stands
  | finite negative left =>
    cases y with
    | nan => cases stands
    | infinite => cases stands
    | finite other right =>
      refine ⟨_, _, rfl, rfl, ?_⟩
      rw [← add_div, ← Int.cast_add]
      simp only [add] at stands
      generalize signed negative left + signed other right = sum at stands ⊢
      split at stands
      next none =>
        have nothing : signed (negative && other) .nothing = 0 := by unfold signed; split <;> rfl
        cases stands
        rw [none, nothing, Int.cast_zero, zero_div]
        exact .refl held_zero
      next =>
        have rounds := ofUnits_rounds Nat.one_pos stands
        rwa [signed_natAbs, Nat.cast_one, div_one] at rounds

theorem exists_of_mul (stands : (x.mul y).amount? = some amount) :
    ∃ a b, x.amount? = some a ∧ y.amount? = some b ∧ Rounds (a * b) amount := by
  cases x with
  | nan => cases stands
  | infinite =>
    cases y with
    | nan => cases stands
    | infinite => cases stands
    | finite =>
      simp only [mul] at stands
      split at stands <;> cases stands
  | finite negative left =>
    cases y with
    | nan => cases stands
    | infinite =>
      simp only [mul] at stands
      split at stands <;> cases stands
    | finite other right =>
      refine ⟨_, _, rfl, rfl, ?_⟩
      have rounds := ofUnits_rounds perOne_pos stands
      have product : (signed negative left / perOne * (signed other right / perOne) : ℚ) =
          (if negative != other then -((left.units * right.units : ℕ) : ℚ) else (left.units * right.units : ℕ)) /
            perOne / perOne := by
        cases negative <;> cases other <;> simp [signed] <;> ring
      rwa [product]

theorem amount?_neg (x : Binary64) : x.neg.amount? = x.amount?.map (-·) := by
  cases x with
  | nan => rfl
  | infinite => rfl
  | finite negative magnitude =>
    cases negative <;> simp [neg, amount?, signed, neg_div]

theorem exists_of_sub (stands : (x.sub y).amount? = some amount) :
    ∃ a b, x.amount? = some a ∧ y.amount? = some b ∧ Rounds (a - b) amount := by
  obtain ⟨a, _, first, second, rounds⟩ := exists_of_add stands
  rw [amount?_neg, Option.map_eq_some_iff] at second
  obtain ⟨b, second, rfl⟩ := second
  exact ⟨a, b, first, second, sub_eq_add_neg a b ▸ rounds⟩

theorem exists_of_floor? {whole : Int} (found : x.floor? = some whole) : ∃ a, x.amount? = some a ∧ whole = ⌊a⌋ := by
  cases x with
  | nan => cases found
  | infinite => cases found
  | finite negative magnitude =>
    cases found
    refine ⟨_, rfl, ?_⟩
    rw [Int.fdiv_eq_ediv_of_nonneg _ (Int.natCast_nonneg perOne)]
    exact (Rat.floor_intCast_div_natCast _ _).symm

end Binary64

/-- The amount that a number stands for, if it is finite. -/
def amount? : Number → Option ℚ
  | .int n => some n
  | .float x => x.amount?

theorem extent?_of_amount? {n : Number} {a : ℚ} (stands : n.amount? = some a) :
    ∃ units : Int, n.extent? = some (.point units) ∧ a = units / perOne := by
  cases n with
  | int m =>
    cases stands
    refine ⟨m * perOne, rfl, ?_⟩
    push_cast
    rw [mul_div_cancel_right₀ _ perOne_above.ne']
  | float x =>
    cases x with
    | nan => cases stands
    | infinite => cases stands
    | finite negative magnitude =>
      cases stands
      exact ⟨_, rfl, rfl⟩

/-- Finite numbers have the order of the amounts that they stand for. -/
theorem less_eq_decide {first second : Number} {a b : ℚ} (left : first.amount? = some a) (right : second.amount? = some b) :
    first.less second = decide (a < b) := by
  obtain ⟨units, here, rfl⟩ := extent?_of_amount? left
  obtain ⟨others, there, rfl⟩ := extent?_of_amount? right
  simp only [less, here, there, Extent.less, decide_eq_decide]
  rw [div_lt_div_iff_of_pos_right perOne_above]
  exact Int.cast_lt.symm

theorem exists_of_toFloat {n : Number} {x : Binary64} {rounded : ℚ} (reads : n.toFloat = .ok x)
    (stands : x.amount? = some rounded) : ∃ exact, n.amount? = some exact ∧ Rounds exact rounded := by
  cases n with
  | float =>
    cases reads
    exact ⟨rounded, stands, .refl (Binary64.held_of_amount? stands)⟩
  | int n =>
    refine ⟨n, rfl, ?_⟩
    rw [toFloat, toFloat?] at reads
    split at reads
    next _ found =>
      cases reads
      exact Binary64.ofInt?_rounds found stands
    next => cases reads

theorem exists_of_floor {n : Number} {whole : Int} (found : n.floor = .ok whole) :
    ∃ a, n.amount? = some a ∧ whole = ⌊a⌋ := by
  cases n with
  | int =>
    cases found
    exact ⟨_, rfl, (Int.floor_intCast _).symm⟩
  | float x =>
    unfold floor at found
    simp only at found
    split at found
    next _ reads =>
      cases found
      exact Binary64.exists_of_floor? reads
    next => cases found

/-- A quotient of whole numbers is a number, and it is rounded once. -/
theorem exists_of_div {whole : Int} {count : Nat} {n : Number} (positive : 0 < count)
    (found : (Number.int whole).div (.int count) = .ok n) :
    ∃ x a, n = .float x ∧ x.amount? = some a ∧ Rounds (whole / count) a := by
  have nonzero : (Number.int count).isZero = false := by
    simp only [isZero, beq_eq_false_iff_ne]
    omega
  have sign : decide ((count : Int) < 0) = false := decide_eq_false (Int.not_lt.mpr (Int.natCast_nonneg count))
  have once : ofQuotient (.ofRatio (decide (whole < 0)) whole.natAbs count) = .ok n := by
    rw [Number.div, nonzero, if_neg Bool.false_ne_true] at found
    simpa only [sign, Bool.bne_false, Int.natAbs_natCast] using found
  cases near : Binary64.ofRatio (decide (whole < 0)) whole.natAbs count with
  | nan => exact absurd near (Binary64.ofUnits_ne_nan _ _ _)
  | infinite =>
    rw [near] at once
    cases once
  | finite =>
    rw [near] at once
    cases once
    refine ⟨_, _, rfl, rfl, ?_⟩
    have rounds := Binary64.ofRatio_rounds positive (congrArg Binary64.amount? near)
    rwa [signed_natAbs] at rounds

section Operations

variable {first second n : Number} {x y : Binary64} {amount : ℚ}

theorem float_add (first : Number) (y : Binary64) :
    first.add (.float y) = first.toFloat.map fun x => .float (x.add y) := by
  cases first with
  | float => rfl
  | int m =>
    simp only [Number.add, combine]
    generalize (Number.int m).toFloat = read
    cases read <;> rfl

theorem float_mul (x : Binary64) (second : Number) :
    (Number.float x).mul second = second.toFloat.map fun y => .float (x.mul y) := by
  cases second with
  | float => rfl
  | int m =>
    simp only [Number.mul, combine]
    generalize (Number.int m).toFloat = read
    cases read <;> rfl

/-- The sum with a floating point number is that of the summand's floating point form. -/
theorem exists_of_add (added : first.add (.float y) = .ok n) (stands : n.amount? = some amount) :
    ∃ a a' b, first.amount? = some a ∧ Rounds a a' ∧ y.amount? = some b ∧ Rounds (a' + b) amount := by
  rw [float_add] at added
  cases reads : first.toFloat with
  | error fault =>
    rw [reads] at added
    cases added
  | ok x =>
    rw [reads] at added
    cases added
    obtain ⟨a', b, left, right, rounds⟩ := Binary64.exists_of_add stands
    obtain ⟨a, exact, near⟩ := exists_of_toFloat reads left
    exact ⟨a, a', b, exact, near, right, rounds⟩

/-- A multiple is exact if it is one of a whole number. -/
theorem exists_of_mul {count : Int} (small : count.natAbs ≤ 2 ^ 53) (multiplied : first.mul (.int count) = .ok n)
    (stands : n.amount? = some amount) :
    ∃ a, first.amount? = some a ∧ (amount = a * count ∨ Rounds (a * count) amount) := by
  cases first with
  | int m =>
    cases multiplied
    cases stands
    exact ⟨m, rfl, .inl (Int.cast_mul m count)⟩
  | float x =>
    rw [float_mul] at multiplied
    cases reads : (Number.int count).toFloat with
    | error fault =>
      rw [reads] at multiplied
      cases multiplied
    | ok y =>
      rw [reads] at multiplied
      cases multiplied
      obtain ⟨a, b, left, right, rounds⟩ := Binary64.exists_of_mul stands
      obtain ⟨exact, whole, near⟩ := exists_of_toFloat reads right
      cases whole
      rw [near.eq (held_int small)] at rounds
      exact ⟨a, left, .inr rounds⟩

end Operations

end Number

end FormRules

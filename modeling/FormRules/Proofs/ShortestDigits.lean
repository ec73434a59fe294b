import FormRules.Number.Decimal
import Mathlib.Algebra.Order.Field.Rat
import Mathlib.Algebra.Order.Ring.Rat
import Mathlib.Tactic.FieldSimp
import Mathlib.Tactic.Linarith
import Mathlib.Tactic.NormNum
import Mathlib.Tactic.Positivity
import Mathlib.Tactic.Ring

/-! Digits that read back as a magnitude stand for an amount that is rounded to it, and no amount is rounded to
two magnitudes. With seventeen digits there are always some that read back. -/

namespace FormRules

namespace Number

/-! A magnitude reads an amount if it is the nearest one. -/

theorem shifted_eq (num : Nat) {den : Nat} (positive : 0 < den) (power : Int) :
    0 < (shifted num den power).2 ∧
      ((shifted num den power).1 : ℚ) / (shifted num den power).2 = num / den * 10 ^ power := by
  unfold shifted
  split
  next up =>
    obtain ⟨n, rfl⟩ := Int.eq_ofNat_of_zero_le up
    refine ⟨positive, ?_⟩
    show ((num * 10 ^ n : ℕ) : ℚ) / den = _
    push_cast
    rw [zpow_natCast]
    ring
  next down =>
    obtain ⟨n, rfl⟩ := Int.exists_eq_neg_ofNat (Int.not_le.mp down).le
    rw [Int.neg_neg, Int.toNat_natCast]
    refine ⟨Nat.mul_pos positive (Nat.pos_of_ne_zero (Nat.pow_pos (by decide)).ne'), ?_⟩
    show (num : ℚ) / ((den * 10 ^ n : ℕ) : ℚ) = _
    push_cast
    rw [zpow_neg, zpow_natCast]
    field_simp

namespace Magnitude

/-- Four times the first amount that is rounded to a magnitude, in least subnormals. Below a power of two the
neighbour is half as far away. -/
def low (magnitude : Magnitude) : Nat :=
  4 * magnitude.units - (if magnitude.spacing > 1 && magnitude.units == magnitude.spacing * Nat.pow 2 52 then
    magnitude.spacing else 2 * magnitude.spacing)

/-- Four times the last amount that is rounded to a magnitude, in least subnormals. -/
def high (magnitude : Magnitude) : Nat := 4 * magnitude.units + 2 * magnitude.spacing

/-- Whether the amounts halfway to the neighbours are rounded to a magnitude too. -/
def isEven (magnitude : Magnitude) : Bool := (magnitude.units / magnitude.spacing) % 2 == 0

/-- Whether a quotient is among the amounts that are rounded to a magnitude. -/
def takes (magnitude : Magnitude) (quotient : Nat × Nat) : Bool :=
  if magnitude.isEven then
    decide (magnitude.low * quotient.2 ≤ quotient.1) && decide (quotient.1 ≤ magnitude.high * quotient.2)
  else decide (magnitude.low * quotient.2 < quotient.1) && decide (quotient.1 < magnitude.high * quotient.2)

theorem takes_iff (magnitude : Magnitude) {quotient : Nat × Nat} (above : (0 : ℚ) < quotient.2) :
    magnitude.takes quotient = true ↔
      let amount : ℚ := quotient.1 / quotient.2
      if magnitude.isEven then magnitude.low ≤ amount ∧ amount ≤ magnitude.high
      else magnitude.low < amount ∧ amount < magnitude.high := by
  unfold takes
  cases magnitude.isEven with
  | true =>
    simp only [if_true, Bool.and_eq_true, decide_eq_true_eq]
    rw [le_div_iff₀ above, div_le_iff₀ above]
    exact_mod_cast Iff.rfl
  | false =>
    simp only [Bool.false_eq_true, if_false, Bool.and_eq_true, decide_eq_true_eq]
    rw [lt_div_iff₀ above, div_lt_iff₀ above]
    exact_mod_cast Iff.rfl

theorem reads_iff (magnitude : Magnitude) (coefficient : Nat) (power : Int) :
    magnitude.reads coefficient power = true ↔
      let amount : ℚ := 4 * perOne * (coefficient * 10 ^ power)
      if magnitude.isEven then magnitude.low ≤ amount ∧ amount ≤ magnitude.high
      else magnitude.low < amount ∧ amount < magnitude.high := by
  obtain ⟨positive, same⟩ := shifted_eq (4 * coefficient * perOne) (Nat.one_pos : 0 < 1) power
  have amount : (4 * perOne * (coefficient * 10 ^ power) : ℚ) =
      (shifted (4 * coefficient * perOne) 1 power).1 / (shifted (4 * coefficient * perOne) 1 power).2 := by
    rw [same]
    push_cast
    ring
  have read : magnitude.reads coefficient power = magnitude.takes (shifted (4 * coefficient * perOne) 1 power) := rfl
  rw [read, amount]
  exact magnitude.takes_iff (by exact_mod_cast positive)

/-- A magnitude is a count of steps, which takes at most 53 bits, and all of them above the least step. -/
theorem exists_steps (magnitude : Magnitude) : ∃ count bits, magnitude.spacing = 2 ^ bits ∧
    magnitude.units = count * 2 ^ bits ∧ count < 2 ^ 53 ∧ (bits = 0 ∨ 2 ^ 52 ≤ count) := by
  obtain ⟨count, shape⟩ := magnitude.fits
  have shape : magnitude.units = count * 2 ^ (magnitude.units.log2 - 52) := by rw [Nat.mul_comm]; exact shape
  refine ⟨count, magnitude.units.log2 - 52, rfl, shape, ?_, ?_⟩
  · refine Nat.lt_of_mul_lt_mul_right (a := 2 ^ (magnitude.units.log2 - 52)) ?_
    rw [← shape, ← Nat.pow_add]
    exact Nat.lt_of_lt_of_le Nat.lt_log2_self (Nat.pow_le_pow_right (by decide) (by omega))
  · by_cases small : magnitude.units.log2 ≤ 52
    · exact .inl (by omega)
    · refine .inr (Nat.le_of_mul_le_mul_right (c := 2 ^ (magnitude.units.log2 - 52)) ?_ (Nat.two_pow_pos _))
      rw [← shape, ← Nat.pow_add]
      have bits : 52 + (magnitude.units.log2 - 52) = magnitude.units.log2 := by omega
      rw [bits]
      exact Nat.log2_self_le (by rintro none; simp [none] at small)

theorem low_eq {magnitude : Magnitude} {count bits : Nat} (steps : magnitude.spacing = 2 ^ bits)
    (units : magnitude.units = count * 2 ^ bits) :
    magnitude.low = 4 * (count * 2 ^ bits) - if 0 < bits ∧ count = 2 ^ 52 then 2 ^ bits else 2 * 2 ^ bits := by
  have narrow : (magnitude.spacing > 1 && magnitude.units == magnitude.spacing * Nat.pow 2 52) =
      decide (0 < bits ∧ count = 2 ^ 52) := by
    rw [steps, units, Bool.eq_iff_iff, Bool.and_eq_true, decide_eq_true_eq, decide_eq_true_eq, beq_iff_eq]
    refine and_congr ?_ ?_
    · exact ⟨fun some => Nat.pos_of_ne_zero fun none => by simp [none] at some, Nat.one_lt_two_pow ∘ Nat.ne_of_gt⟩
    · rw [Nat.mul_comm (2 ^ bits)]
      exact Nat.mul_left_inj (Nat.two_pow_pos bits).ne'
  rw [low, narrow, units, steps]
  simp only [decide_eq_true_eq]

theorem isEven_eq {magnitude : Magnitude} {count bits : Nat} (steps : magnitude.spacing = 2 ^ bits)
    (units : magnitude.units = count * 2 ^ bits) : magnitude.isEven = (count % 2 == 0) := by
  rw [isEven, steps, units, Nat.mul_div_cancel _ (Nat.two_pow_pos bits)]

/-! Counts of steps of the sizes `s` and `t`, their bounds in quarters. -/

theorem apart_of_wider {a b s t : Nat} (positive : 0 < s) (doubled : 2 * s ≤ t) (few : a < 2 ^ 53)
    (wide : 2 ^ 52 ≤ b) :
    4 * (a * s) + 2 * s ≤ 4 * (b * t) - (if b = 2 ^ 52 then t else 2 * t) ∧
      (4 * (a * s) + 2 * s = 4 * (b * t) - (if b = 2 ^ 52 then t else 2 * t) → ¬(a % 2 = 0 ∧ b % 2 = 0)) := by
  have bounded : a * s + s ≤ 2 ^ 52 * (2 * s) := by
    calc a * s + s = (a + 1) * s := by ring
      _ ≤ 2 ^ 53 * s := Nat.mul_le_mul_right _ few
      _ = 2 ^ 52 * (2 * s) := by ring
  have grown : 2 ^ 52 * (2 * s) + t ≤ 2 ^ 52 * t + 2 * s := by
    obtain ⟨more, rfl⟩ := Nat.exists_eq_add_of_le doubled
    have larger : more ≤ 2 ^ 52 * more := Nat.le_mul_of_pos_left more (by decide)
    linarith
  by_cases narrow : b = 2 ^ 52
  · rw [if_pos narrow, narrow]
    have touching (even : a % 2 = 0) : a * s + s ≠ 2 ^ 52 * (2 * s) := by
      intro touch
      have last : (a + 1) * s = 2 ^ 53 * s := by linarith
      have odd : a + 1 = 2 ^ 53 := Nat.eq_of_mul_eq_mul_right positive last
      omega
    generalize a * s = x at *
    generalize 2 ^ 52 * (2 * s) = y at *
    generalize 2 ^ 52 * t = z at *
    exact ⟨by omega, fun touch even => touching even.1 (by omega)⟩
  · rw [if_neg narrow]
    have above : 2 ^ 52 * t + t ≤ b * t := by
      calc 2 ^ 52 * t + t = (2 ^ 52 + 1) * t := by ring
        _ ≤ b * t := Nat.mul_le_mul_right _ (by omega)
    generalize a * s = x at *
    generalize 2 ^ 52 * (2 * s) = y at *
    generalize 2 ^ 52 * t = z at *
    generalize b * t = w at *
    exact ⟨by omega, fun touch => by omega⟩

theorem apart_of_next {a b s : Nat} {narrow : Prop} [Decidable narrow] (positive : 0 < s) (next : a < b) :
    4 * (a * s) + 2 * s ≤ 4 * (b * s) - (if narrow then s else 2 * s) ∧
      (4 * (a * s) + 2 * s = 4 * (b * s) - (if narrow then s else 2 * s) → ¬(a % 2 = 0 ∧ b % 2 = 0)) := by
  have gap : a * s + s ≤ b * s := by
    calc a * s + s = (a + 1) * s := by ring
      _ ≤ b * s := Nat.mul_le_mul_right _ next
  have touching (even : a % 2 = 0 ∧ b % 2 = 0) : a * s + s ≠ b * s := by
    intro touch
    have after : a + 1 = b := Nat.eq_of_mul_eq_mul_right positive (by linarith)
    omega
  generalize a * s = x at *
  generalize b * s = y at *
  refine ⟨?_, fun touch even => touching even ?_⟩
  · split <;> omega
  · split at touch <;> omega

/-- What is rounded to a magnitude lies below what is rounded to a greater one; an amount between both goes to
the even one. -/
theorem high_le_low {smaller greater : Magnitude} (less : smaller.units < greater.units) :
    smaller.high ≤ greater.low ∧ (smaller.high = greater.low → ¬(smaller.isEven = true ∧ greater.isEven = true)) := by
  obtain ⟨a, i, step, first, fewA, wideA⟩ := smaller.exists_steps
  obtain ⟨b, j, step', second, fewB, wideB⟩ := greater.exists_steps
  have highest : smaller.high = 4 * (a * 2 ^ i) + 2 * 2 ^ i := by rw [high, first, step]
  rw [highest, low_eq step' second, isEven_eq step first, isEven_eq step' second, beq_iff_eq, beq_iff_eq]
  rw [first, second] at less
  have positive : 0 < 2 ^ i := Nat.two_pow_pos i
  obtain lower | rfl | higher := Nat.lt_trichotomy i j
  · have wide : 2 ^ 52 ≤ b := wideB.resolve_left (by omega)
    have doubled : 2 * 2 ^ i ≤ 2 ^ j := by
      rw [← Nat.pow_succ']
      exact Nat.pow_le_pow_right (by decide) lower
    have some : 0 < j := by omega
    simp only [some, true_and]
    clear first second step step' wideA wideB highest lower some
    generalize 2 ^ i = s at *
    generalize 2 ^ j = t at *
    exact apart_of_wider positive doubled fewA wide
  · have next : a < b := Nat.lt_of_mul_lt_mul_right less
    generalize 2 ^ i = s at positive
    exact apart_of_next positive next
  · exfalso
    have wide : 2 ^ 52 ≤ a := wideA.resolve_left (by omega)
    have doubled : 2 * 2 ^ j ≤ 2 ^ i := by
      rw [← Nat.pow_succ']
      exact Nat.pow_le_pow_right (by decide) higher
    have above : 2 ^ 52 * (2 * 2 ^ j) ≤ a * 2 ^ i := Nat.mul_le_mul wide doubled
    have below : b * 2 ^ j ≤ 2 ^ 53 * 2 ^ j := Nat.mul_le_mul_right _ fewB.le
    have same : 2 ^ 52 * (2 * 2 ^ j) = 2 ^ 53 * 2 ^ j := by ring
    exact absurd less (Nat.not_lt.mpr (below.trans (same ▸ above)))

/-- What reads back lies within the bounds of a magnitude, and on them only if it is even. -/
theorem reads_bounds {magnitude : Magnitude} {coefficient : Nat} {power : Int}
    (read : magnitude.reads coefficient power = true) :
    (magnitude.low : ℚ) ≤ 4 * perOne * (coefficient * 10 ^ power) ∧
      4 * perOne * (coefficient * 10 ^ power) ≤ (magnitude.high : ℚ) ∧
      (magnitude.isEven = true ∨ ((magnitude.low : ℚ) < 4 * perOne * (coefficient * 10 ^ power) ∧
        4 * perOne * (coefficient * 10 ^ power) < (magnitude.high : ℚ))) := by
  rw [reads_iff] at read
  simp only at read
  split at read
  next even => exact ⟨read.1, read.2, .inl even⟩
  next => exact ⟨read.1.le, read.2.le, .inr read⟩

/-- What lies strictly within the bounds reads back. -/
theorem reads_of_between {magnitude : Magnitude} {coefficient : Nat} {power : Int}
    (above : (magnitude.low : ℚ) < 4 * perOne * (coefficient * 10 ^ power))
    (below : 4 * perOne * (coefficient * 10 ^ power) < (magnitude.high : ℚ)) :
    magnitude.reads coefficient power = true := by
  rw [reads_iff]
  simp only
  split
  · exact ⟨above.le, below.le⟩
  · exact ⟨above, below⟩

theorem not_less_of_reads {smaller greater : Magnitude} {c d : Nat} {p q : Int} (left : smaller.reads c p = true)
    (right : greater.reads d q = true) (same : (c * 10 ^ p : ℚ) = d * 10 ^ q) : ¬smaller.units < greater.units := by
  intro less
  obtain ⟨below, touching⟩ := high_le_low less
  have below : (smaller.high : ℚ) ≤ greater.low := by exact_mod_cast below
  obtain ⟨_, under, within⟩ := reads_bounds left
  obtain ⟨above, _, within'⟩ := reads_bounds right
  rw [← same] at above within'
  generalize (4 * perOne * (c * 10 ^ p) : ℚ) = amount at *
  have touch : smaller.high = greater.low := by exact_mod_cast le_antisymm below (above.trans under)
  obtain even | ⟨_, inside⟩ := within
  · obtain even' | ⟨inside, _⟩ := within'
    · exact touching touch ⟨even, even'⟩
    · exact absurd (inside.trans_le under) (not_lt.mpr below)
  · exact absurd (above.trans_lt inside) (not_lt.mpr below)

/-- No amount is rounded to two magnitudes. -/
theorem eq_of_reads {first second : Magnitude} {c d : Nat} {p q : Int} (left : first.reads c p = true)
    (right : second.reads d q = true) (same : (c * 10 ^ p : ℚ) = d * 10 ^ q) : first = second :=
  Magnitude.ext (Nat.le_antisymm (Nat.not_lt.mp (not_less_of_reads right left same.symm))
    (Nat.not_lt.mp (not_less_of_reads left right same)))

end Magnitude

/-! Seventeen digits are enough. -/

theorem pow_length_le {n : Nat} (positive : 0 < n) : 10 ^ ((decimalDigits n).length - 1) ≤ n := by
  by_contra above
  have short := (Nat.length_toDigits_le_iff (b := 10) (k := (decimalDigits n).length - 1) (by decide) ?_).mpr
    (Nat.not_le.mp above)
  · have some : 0 < (decimalDigits n).length := Nat.length_toDigits_pos
    change (decimalDigits n).length ≤ _ at short
    omega
  · rcases Nat.eq_zero_or_pos ((decimalDigits n).length - 1) with none | some
    · rw [none] at above
      omega
    · exact some

theorem lt_pow_length (n : Nat) : n < 10 ^ (decimalDigits n).length :=
  (Nat.length_toDigits_le_iff (by decide) Nat.length_toDigits_pos).mp le_rfl

theorem leadingPower_le {num den : Nat} (some : 0 < num) (positive : 0 < den) :
    (10 : ℚ) ^ leadingPower num den ≤ num / den := by
  have above : (0 : ℚ) < den := by exact_mod_cast positive
  unfold leadingPower
  split
  next large =>
    have whole : 0 < num / den := Nat.div_pos large positive
    have length : 0 < (decimalDigits (num / den)).length := Nat.length_toDigits_pos
    obtain ⟨places, shape⟩ := Nat.exists_eq_add_of_lt length
    have least := pow_length_le whole
    rw [shape] at least ⊢
    simp only [Nat.zero_add, Nat.add_sub_cancel] at least ⊢
    push_cast
    rw [add_sub_cancel_right, zpow_natCast, le_div_iff₀ above]
    have product : 10 ^ places * den ≤ num := (Nat.le_div_iff_mul_le positive).mp least
    exact_mod_cast product
  next small =>
    simp only
    split
    next fits =>
      have fits : den ≤ num * 10 ^ ((decimalDigits (den / num)).length - 1) := fits
      rw [zpow_neg, zpow_natCast, inv_le_iff_one_le_mul₀ (by positivity), div_mul_eq_mul_div, le_div_iff₀ above, one_mul]
      exact_mod_cast fits
    next =>
      have less : den < 10 ^ (decimalDigits (den / num)).length * num :=
        (Nat.div_lt_iff_lt_mul some).mp (lt_pow_length _)
      rw [zpow_neg, zpow_natCast, inv_le_iff_one_le_mul₀ (by positivity), div_mul_eq_mul_div, le_div_iff₀ above, one_mul]
      exact_mod_cast (Nat.mul_comm _ num ▸ less).le

theorem nearestEven_near (num : Nat) {den : Nat} (positive : 0 < den) :
    |(nearestEven num den : ℚ) - num / den| ≤ 1 / 2 := by
  have above : (0 : ℚ) < den := by exact_mod_cast positive
  have parts : (den * (num / den : ℕ) + (num % den : ℕ) : ℚ) = num := by exact_mod_cast Nat.div_add_mod num den
  have quotient : (num / den : ℚ) = (num / den : ℕ) + (num % den : ℕ) / den := by
    rw [← parts]
    field_simp
  have less : ((num % den : ℕ) : ℚ) < den := by exact_mod_cast Nat.mod_lt num positive
  have least : (0 : ℚ) ≤ (num % den : ℕ) := Nat.cast_nonneg _
  rw [quotient, abs_le]
  have down (half : 2 * (num % den) ≤ den) : ((num % den : ℕ) : ℚ) / den ≤ 1 / 2 := by
    have half : (2 * (num % den : ℕ) : ℚ) ≤ den := by exact_mod_cast half
    rw [div_le_iff₀ above]
    linarith
  have up (half : den ≤ 2 * (num % den)) : (1 : ℚ) / 2 ≤ ((num % den : ℕ) : ℚ) / den := by
    have half : (den : ℚ) ≤ 2 * (num % den : ℕ) := by exact_mod_cast half
    rw [le_div_iff₀ above]
    linarith
  have small : ((num % den : ℕ) : ℚ) / den ≤ 1 := (div_le_one above).mpr less.le
  have nonneg : (0 : ℚ) ≤ ((num % den : ℕ) : ℚ) / den := div_nonneg least above.le
  unfold nearestEven
  simp only
  split
  next lower =>
    have := down lower.le
    constructor <;> linarith
  next upper =>
    split
    next higher =>
      have := up higher.le
      push_cast
      constructor <;> linarith
    next tied =>
      have := down (by omega)
      have := up (by omega)
      split
      · constructor <;> linarith
      · push_cast
        constructor <;> linarith

namespace Magnitude

/-- An amount closer to a magnitude than a quarter of its least distance reads back. -/
theorem reads_of_near {magnitude : Magnitude} (some : 0 < magnitude.units) {coefficient : Nat} {power : Int}
    (near : |(4 * perOne * (coefficient * 10 ^ power) : ℚ) - 4 * magnitude.units| ≤
      2 * magnitude.units / 10 ^ (16 : ℕ)) : magnitude.reads coefficient power = true := by
  obtain ⟨count, bits, step, units, few, wide⟩ := magnitude.exists_steps
  have positive : (0 : ℚ) < 2 ^ bits := by positivity
  have counted : (magnitude.units : ℚ) = count * 2 ^ bits := by
    rw [units]
    push_cast
    ring
  have fewer : (count : ℚ) < 2 ^ (53 : ℕ) := by exact_mod_cast few
  rw [abs_le] at near
  have close : (2 * magnitude.units / 10 ^ (16 : ℕ) : ℚ) < 2 * 2 ^ bits := by
    have : (2 * magnitude.units / 10 ^ (16 : ℕ) : ℚ) = (2 * count / 10 ^ (16 : ℕ)) * 2 ^ bits := by
      rw [counted]
      ring
    rw [this]
    refine mul_lt_mul_of_pos_right ?_ positive
    have enough : (2 : ℚ) ^ (53 : ℕ) < 10 ^ (16 : ℕ) := by norm_num
    rw [div_lt_iff₀ (by norm_num)]
    linarith
  refine reads_of_between ?_ ?_
  · have lowest : (magnitude.low : ℚ) < 4 * magnitude.units - 2 * magnitude.units / 10 ^ (16 : ℕ) := by
      rw [low_eq step units]
      split
      next narrow =>
        have below : 2 ^ bits ≤ 4 * (count * 2 ^ bits) := by
          rw [narrow.2]
          nlinarith [Nat.two_pow_pos bits]
        rw [Nat.cast_sub below, counted, narrow.2]
        push_cast
        norm_num
        linarith
      next =>
        have below : 2 * 2 ^ bits ≤ 4 * (count * 2 ^ bits) := by
          have begun : 1 * 2 ^ bits ≤ count * 2 ^ bits :=
            Nat.mul_le_mul_right _ (Nat.pos_of_mul_pos_right (units ▸ some))
          omega
        rw [Nat.cast_sub below]
        push_cast
        rw [← counted]
        linarith
    linarith
  · have highest : (magnitude.high : ℚ) = 4 * magnitude.units + 2 * 2 ^ bits := by
      rw [high, step]
      push_cast
      ring
    linarith

theorem reads_of_onGrid? {magnitude : Magnitude} {power : Int} {coefficient : Nat}
    (found : magnitude.onGrid? power = some coefficient) : magnitude.reads coefficient power = true :=
  List.find?_some (p := (magnitude.reads · power)) found

/-- The coefficient nearest to a magnitude is half a step of its power away from it at most. -/
theorem nearest_near (magnitude : Magnitude) (power : Int) :
    |(4 * perOne * (nearestEven (shifted magnitude.units perOne (-power)).1 (shifted magnitude.units perOne (-power)).2 *
      10 ^ power) : ℚ) - 4 * magnitude.units| ≤ 2 * perOne * 10 ^ power := by
  obtain ⟨positive, same⟩ := shifted_eq magnitude.units perOne_pos (-power)
  have near := nearestEven_near (shifted magnitude.units perOne (-power)).1 positive
  rw [same] at near
  have one : (0 : ℚ) < perOne := by exact_mod_cast perOne_pos
  generalize (nearestEven _ _ : ℚ) = nearest at near ⊢
  generalize (perOne : ℚ) = unit at *
  have step : (0 : ℚ) < 10 ^ power := zpow_pos (by norm_num) power
  have scale : (0 : ℚ) < 4 * unit * 10 ^ power := mul_pos (mul_pos (by norm_num) one) step
  have scaled : (4 * unit * (nearest * 10 ^ power) : ℚ) - 4 * magnitude.units =
      (nearest - magnitude.units / unit * 10 ^ (-power)) * (4 * unit * 10 ^ power) := by
    rw [zpow_neg]
    field_simp
  rw [scaled, abs_mul, abs_of_pos scale]
  calc _ ≤ 1 / 2 * (4 * unit * 10 ^ power : ℚ) := mul_le_mul_of_nonneg_right near scale.le
    _ = 2 * unit * 10 ^ power := by ring

theorem onGrid?_ne_none_of_reads {magnitude : Magnitude} {power : Int}
    (read : magnitude.reads (nearestEven (shifted magnitude.units perOne (-power)).1
      (shifted magnitude.units perOne (-power)).2) power = true) : magnitude.onGrid? power ≠ none := by
  unfold onGrid?
  generalize shifted magnitude.units perOne (-power) = quotient at *
  obtain ⟨num, den⟩ := quotient
  exact fun none => List.find?_eq_none.mp none _ List.mem_cons_self read

theorem onGrid?_ne_none {magnitude : Magnitude} (some : 0 < magnitude.units) :
    magnitude.onGrid? (leadingPower magnitude.units perOne - 16) ≠ none := by
  refine onGrid?_ne_none_of_reads (reads_of_near some ((nearest_near magnitude _).trans ?_))
  have one : (0 : ℚ) < perOne := by exact_mod_cast perOne_pos
  have leading := (le_div_iff₀ one).mp (leadingPower_le some perOne_pos)
  generalize (perOne : ℚ) = unit at *
  rw [zpow_sub₀ (by norm_num), ← mul_div_assoc, show ((16 : Int) = ((16 : ℕ) : Int)) from rfl, zpow_natCast]
  refine div_le_div_of_nonneg_right ?_ (by positivity)
  linarith

/-- The digits chosen for a magnitude stand for an amount that is rounded to it. -/
theorem shortest_reads (magnitude : Magnitude) : ∃ coefficient power,
    magnitude.reads coefficient power = true ∧ magnitude.shortest = Decimal.ofCoefficient coefficient power := by
  unfold shortest
  by_cases none : magnitude.units = 0
  · refine ⟨0, 0, ?_, by rw [if_pos none]; rfl⟩
    have even : magnitude.isEven = true := by
      rw [isEven, none, Nat.zero_div]
      rfl
    have lowest : magnitude.low = 0 := by rw [low, none, Nat.mul_zero, Nat.zero_sub]
    rw [reads_iff]
    simp only [even, if_true, lowest, Nat.cast_zero, zero_mul, mul_zero, le_refl, true_and, Nat.cast_nonneg]
  · rw [if_neg none]
    simp only
    cases search : (List.range 17).findSome? fun extra =>
        (magnitude.onGrid? (leadingPower magnitude.units perOne - Int.ofNat extra)).map
          (Decimal.ofCoefficient · (leadingPower magnitude.units perOne - Int.ofNat extra)) with
    | none =>
      have last := List.findSome?_eq_none_iff.mp search 16 (by simp)
      exact absurd (Option.map_eq_none_iff.mp last) (onGrid?_ne_none (Nat.pos_of_ne_zero none))
    | some decimal =>
      obtain ⟨extra, _, found⟩ := List.exists_of_findSome?_eq_some search
      obtain ⟨coefficient, grid, rfl⟩ := Option.map_eq_some_iff.mp found
      exact ⟨coefficient, _, reads_of_onGrid? grid, rfl⟩

end Magnitude

end Number

end FormRules

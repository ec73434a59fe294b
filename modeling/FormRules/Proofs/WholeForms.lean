import FormRules.Proofs.NumberRange
import Mathlib.Tactic.SplitIfs

/-! Floating point forms of whole numbers. Rounding keeps the order of what it rounds, but not all differences: a whole
number is its own form just if it takes 53 bits, and one that is too large has no form at all. -/

namespace FormRules

namespace Number

theorem nearestEven_mono {num num' : Nat} (less : num ≤ num') (den : Nat) : nearestEven num den ≤ nearestEven num' den := by
  have quotients : num / den ≤ num' / den := Nat.div_le_div_right less
  by_cases same : num / den = num' / den
  · have parts := Nat.div_add_mod num den
    have parts' := Nat.div_add_mod num' den
    rw [← same] at parts'
    have rests : num % den ≤ num' % den := by omega
    unfold nearestEven
    simp only [← same]
    split_ifs <;> omega
  · obtain equal | equal := nearestEven_eq_or num den <;> obtain equal' | equal' := nearestEven_eq_or num' den <;> omega

/-- Rounding keeps an order: what takes as many bits is rounded by the same step, and the least power of two
that takes more bits is not passed from either side. -/
theorem roundBits_mono {num num' den : Nat} (positive : 0 < den) (less : num ≤ num') :
    roundBits num den ≤ roundBits num' den := by
  have quotients : num / den ≤ num' / den := Nat.div_le_div_right less
  by_cases same : (num / den).log2 = (num' / den).log2
  · unfold roundBits
    rw [same]
    exact Nat.mul_le_mul_right _ (nearestEven_mono less _)
  · have some : num' / den ≠ 0 := by
      intro none
      rw [none, Nat.le_zero] at quotients
      exact same (by rw [quotients, none])
    have power : 2 ^ (num' / den).log2 * den ≤ num' := (Nat.le_div_iff_mul_le positive).mp (Nat.log2_self_le some)
    have below : num / den < 2 ^ (num' / den).log2 := by
      refine Nat.lt_of_not_le fun above => same (Nat.le_antisymm ?_ ?_)
      · by_cases none : num / den = 0
        · simp [none]
        · exact (Nat.le_log2 some).mpr (Nat.le_trans (Nat.log2_self_le none) quotients)
      · exact (Nat.le_log2 (Nat.ne_of_gt (Nat.lt_of_lt_of_le (Nat.two_pow_pos _) above))).mpr above
    calc roundBits num den ≤ 2 ^ (num' / den).log2 :=
          roundBits_le positive (fits_two_pow _) (Nat.le_of_lt ((Nat.div_lt_iff_lt_mul positive).mp below))
      _ ≤ roundBits num' den := le_roundBits positive (fits_two_pow _) power

theorem log2_mul_two_pow {units : Nat} (some : units ≠ 0) (power : Nat) :
    (units * 2 ^ power).log2 = units.log2 + power := by
  induction power with
  | zero => rw [Nat.pow_zero, Nat.mul_one, Nat.add_zero]
  | succ power ih =>
    have above : units * 2 ^ power ≠ 0 := Nat.mul_ne_zero some (Nat.ne_of_gt (Nat.two_pow_pos power))
    rw [Nat.pow_succ, ← Nat.mul_assoc, Nat.mul_comm, Nat.log2_two_mul above, ih, Nat.add_assoc]

/-- What takes 53 bits still does so with more zeros at its end, and without them. -/
theorem fits_mul_two_pow {units power : Nat} : Fits (units * 2 ^ power) ↔ Fits units := by
  by_cases none : units = 0
  · rw [none, Nat.zero_mul]
  show 2 ^ ((units * 2 ^ power).log2 - 52) ∣ units * 2 ^ power ↔ 2 ^ (units.log2 - 52) ∣ units
  rw [log2_mul_two_pow none]
  by_cases wide : 52 ≤ units.log2
  · rw [Nat.sub_add_comm wide, Nat.pow_add]
    exact Nat.mul_dvd_mul_iff_right (Nat.two_pow_pos power)
  · have small : units.log2 - 52 = 0 := by omega
    rw [small]
    refine iff_of_true (Nat.dvd_trans (Nat.pow_dvd_pow 2 ?_) (Nat.dvd_mul_left _ units)) (Nat.one_dvd units)
    omega

theorem overflow_eq : overflow = 2 ^ 1024 * perOne := by
  have split : 2098 = 1024 + 1074 := rfl
  unfold overflow perOne
  rw [split]
  generalize 1024 = limit
  generalize 1074 = more
  exact Nat.pow_add 2 limit more

theorem exists_two_pow : ∃ power, perOne = 2 ^ power :=
  ⟨0 + 1074, by rw [← scale_eq, scale, Nat.pow_zero, Nat.one_mul]⟩

attribute [local irreducible] perOne overflow

/-- What the floating point form of a whole number counts, if that is not too much for one. -/
def formUnits (n : Int) : Int :=
  if n < 0 then -(roundBits (n.natAbs * perOne) 1 : Int) else roundBits (n.natAbs * perOne) 1

theorem natAbs_formUnits (n : Int) : (formUnits n).natAbs = roundBits (n.natAbs * perOne) 1 := by
  unfold formUnits
  split
  · rw [Int.natAbs_neg, Int.natAbs_natCast]
  · rw [Int.natAbs_natCast]

theorem formUnits_mono {a b : Int} (less : a ≤ b) : formUnits a ≤ formUnits b := by
  have keeps {x y : Nat} (less : x ≤ y) : roundBits (x * perOne) 1 ≤ roundBits (y * perOne) 1 :=
    roundBits_mono Nat.one_pos (Nat.mul_le_mul_right _ less)
  unfold formUnits
  split
  · split
    · have := @keeps b.natAbs a.natAbs (by omega)
      omega
    · omega
  · rw [if_neg (by omega)]
    exact_mod_cast keeps (by omega)

theorem ofRatio_int (n : Int) :
    (∃ magnitude : Magnitude, Binary64.ofRatio (n < 0) n.natAbs 1 = .finite (n < 0) magnitude ∧
        magnitude.units = roundBits (n.natAbs * perOne) 1) ∨
      Binary64.ofRatio (n < 0) n.natAbs 1 = .infinite (n < 0) ∧ overflow ≤ roundBits (n.natAbs * perOne) 1 := by
  unfold Binary64.ofRatio Binary64.ofUnits
  split
  next => exact .inl ⟨_, rfl, rfl⟩
  next large => exact .inr ⟨rfl, Nat.not_lt.mp large⟩

/-- A whole number has a floating point form unless this would count too much. -/
theorem toFloat_int (n : Int) :
    (∃ negative magnitude, (Number.int n).toFloat = .ok (.finite negative magnitude) ∧
        Binary64.signed negative magnitude = formUnits n) ∨
      (Number.int n).toFloat = .error (.overflow .float) ∧ overflow ≤ (formUnits n).natAbs := by
  rw [natAbs_formUnits, toFloat, toFloat?, Binary64.ofInt?]
  obtain ⟨magnitude, found, units⟩ | ⟨large, above⟩ := ofRatio_int n
  · rw [found]
    refine .inl ⟨_, _, rfl, ?_⟩
    rw [Binary64.signed, formUnits, units]
    simp
  · rw [large]
    exact .inr ⟨rfl, above⟩

theorem extent?_of_toFloat {n : Int} {x : Binary64} (reads : (Number.int n).toFloat = .ok x) :
    (Number.float x).extent? = some (.point (formUnits n)) := by
  obtain ⟨negative, magnitude, found, units⟩ | ⟨fails, _⟩ := toFloat_int n
  · obtain rfl := Except.ok.inj (found.symm.trans reads)
    exact congrArg (some ∘ Extent.point) units
  · exact nomatch reads.symm.trans fails

/-! Numbers at places that are counted are compared by their counts. -/

section Places

variable {first second : Number} {units more : Int} (left : first.extent? = some (.point units))
  (right : second.extent? = some (.point more))

include left right

theorem less_of_extent? : first.less second = decide (units < more) := by
  simp only [less, left, right, Extent.less]

theorem equal_of_extent? : first.equal second = decide (units = more) := by
  simp only [equal, left, right]
  by_cases same : units = more
  · rw [same, beq_self_eq_true, decide_eq_true rfl]
  · rw [beq_false_of_ne fun equal => same (Extent.point.inj equal), decide_eq_false same]

theorem numbers_of_extent? (comparison : Comparison) : comparison.numbers first second =
    comparison.ofOrder (decide (units < more)) (decide (units = more)) (decide (more < units)) := by
  rw [Comparison.numbers, less_of_extent? left right, equal_of_extent? left right, less_of_extent? right left]

end Places

theorem equal_of_toFloat {a b : Int} {x y : Binary64} (left : (Number.int a).toFloat = .ok x)
    (right : (Number.int b).toFloat = .ok y) : (Number.float x).equal (.float y) = decide (formUnits a = formUnits b) :=
  equal_of_extent? (extent?_of_toFloat left) (extent?_of_toFloat right)

/-- Whether a floating point number can be exactly this whole number. -/
def IsExact (n : Int) : Prop := Fits n.natAbs ∧ n.natAbs < 2 ^ 1024

instance (n : Int) : Decidable (IsExact n) := inferInstanceAs (Decidable (Fits n.natAbs ∧ n.natAbs < 2 ^ 1024))

theorem isExact_of_small {n : Int} (small : n.natAbs ≤ 2 ^ 53) : IsExact n := by
  have fits : Fits (n.natAbs * 2 ^ 0) := fits_mul_pow small
  have room : 53 < 1024 := by decide
  refine ⟨fits_mul_two_pow.mp fits, Nat.lt_of_le_of_lt small ?_⟩
  generalize 1024 = limit at room
  exact Nat.pow_lt_pow_right Nat.one_lt_two room

theorem isExact_iff_formUnits {n : Int} : IsExact n ↔ formUnits n = n * perOne ∧ (formUnits n).natAbs < overflow := by
  obtain ⟨power, one⟩ := exists_two_pow
  rw [natAbs_formUnits, overflow_eq, IsExact]
  have fits : Fits n.natAbs ↔ Fits (n.natAbs * perOne) := by rw [one, fits_mul_two_pow]
  rw [fits]
  constructor
  · rintro ⟨fits, small⟩
    have whole := roundBits_one fits
    rw [whole]
    refine ⟨?_, Nat.mul_lt_mul_of_pos_right small perOne_pos⟩
    rw [formUnits, whole, Int.natCast_mul]
    split
    · rw [← Int.neg_mul]
      exact congrArg (· * (perOne : Int)) (by omega)
    · exact congrArg (· * (perOne : Int)) (by omega)
  · rintro ⟨same, bounded⟩
    have whole := congrArg Int.natAbs same
    rw [natAbs_formUnits, Int.natAbs_mul, Int.natAbs_natCast] at whole
    rw [whole] at bounded
    exact ⟨whole ▸ fits_roundBits _ 1, Nat.lt_of_mul_lt_mul_right bounded⟩

theorem isExact_iff {n : Int} :
    IsExact n ↔ ∃ x, (Number.int n).toFloat = .ok x ∧ (Number.float x).equal (.int n) = true := by
  rw [isExact_iff_formUnits]
  obtain ⟨negative, magnitude, reads, units⟩ | ⟨fails, above⟩ := toFloat_int n
  · have bounded : (formUnits n).natAbs < overflow := by
      rw [← units, Binary64.natAbs_signed]
      exact magnitude.bounded
    have whole : (Number.int n).extent? = some (.point (n * perOne)) := rfl
    simp [reads, equal_of_extent? (extent?_of_toFloat reads) whole, bounded]
  · refine iff_of_false (fun exact => ?_) ?_
    · omega
    · rintro ⟨x, reads, _⟩
      exact nomatch reads.symm.trans fails

end Number

end FormRules

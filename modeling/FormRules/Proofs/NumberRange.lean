import FormRules.Proofs.Agreement
import FormRules.Value.Arithmetic
import Mathlib.Algebra.Group.Nat.Defs

/-! How far numbers reach. Operations on numbers of a limited magnitude end with a number of a limited magnitude:
they do not overflow, and what is finite stays finite. -/

namespace FormRules

namespace Number

theorem nearestEven_le {num den count : Nat} (positive : 0 < den) (small : num ≤ count * den) :
    nearestEven num den ≤ count := by
  have low : num / den ≤ count := Nat.div_le_of_le_mul (by rwa [Nat.mul_comm])
  by_cases whole : num / den = count
  · have parts := Nat.div_add_mod num den
    rw [whole, Nat.mul_comm] at parts
    have rest : num % den = 0 := by omega
    simp [nearestEven, whole, rest, positive]
  · obtain equal | equal := nearestEven_eq_or num den <;> omega

/-- The step of rounding below a count that fits divides this count. -/
theorem step_dvd {units whole : Nat} (fits : Fits units) (below : whole ≤ units) :
    2 ^ (whole.log2 - 52) ∣ units := by
  by_cases nothing : whole = 0
  · simp [nothing]
  · have bits : whole.log2 ≤ units.log2 := (Nat.le_log2 (by omega)).mpr (Nat.le_trans (Nat.log2_self_le nothing) below)
    exact Nat.dvd_trans (Nat.pow_dvd_pow 2 (by omega)) fits

/-- Rounding does not pass a multiple of its step, neither upwards nor downwards. -/
theorem roundBits_le_of_dvd {num den units : Nat} (positive : 0 < den)
    (steps : 2 ^ ((num / den).log2 - 52) ∣ units) (small : num ≤ units * den) : roundBits num den ≤ units := by
  show nearestEven num (den * 2 ^ ((num / den).log2 - 52)) * 2 ^ ((num / den).log2 - 52) ≤ units
  generalize some : 2 ^ ((num / den).log2 - 52) = step at steps
  obtain ⟨count, rfl⟩ := steps
  have above : 0 < step := some ▸ Nat.two_pow_pos _
  rw [Nat.mul_comm step count] at small ⊢
  refine Nat.mul_le_mul_right _ (nearestEven_le (Nat.mul_pos positive above) ?_)
  rwa [Nat.mul_comm den, ← Nat.mul_assoc]

theorem le_roundBits_of_dvd {num den units : Nat} (positive : 0 < den)
    (steps : 2 ^ ((num / den).log2 - 52) ∣ units) (large : units * den ≤ num) : units ≤ roundBits num den := by
  show units ≤ nearestEven num (den * 2 ^ ((num / den).log2 - 52)) * 2 ^ ((num / den).log2 - 52)
  generalize some : 2 ^ ((num / den).log2 - 52) = step at steps
  obtain ⟨count, rfl⟩ := steps
  have above : 0 < step := some ▸ Nat.two_pow_pos _
  rw [Nat.mul_comm step count] at large ⊢
  have least : count ≤ num / (den * step) := by
    rw [Nat.le_div_iff_mul_le (Nat.mul_pos positive above)]
    rwa [Nat.mul_comm den, ← Nat.mul_assoc]
  refine Nat.mul_le_mul_right _ (Nat.le_trans least ?_)
  obtain equal | equal := nearestEven_eq_or num (den * step) <;> omega

/-- Rounding does not pass a number that fits. -/
theorem roundBits_le {num den units : Nat} (positive : 0 < den) (fits : Fits units) (small : num ≤ units * den) :
    roundBits num den ≤ units :=
  roundBits_le_of_dvd positive (step_dvd fits (Nat.div_le_of_le_mul (by rwa [Nat.mul_comm]))) small

theorem le_roundBits {num den units : Nat} (positive : 0 < den) (fits : Fits units) (large : units * den ≤ num) :
    units ≤ roundBits num den := by
  have below : units ≤ num / den := (Nat.le_div_iff_mul_le positive).mpr large
  by_cases nothing : num / den = 0
  · omega
  by_cases less : units < 2 ^ (num / den).log2
  · -- The step need not divide what lies below the leading power of two, but it divides this power.
    have power : 2 ^ (num / den).log2 ≤ roundBits num den := by
      refine le_roundBits_of_dvd positive (Nat.pow_dvd_pow 2 (Nat.sub_le _ _)) ?_
      exact (Nat.le_div_iff_mul_le positive).mp (Nat.log2_self_le nothing)
    omega
  · have above : units ≠ 0 := fun none => less (none ▸ Nat.two_pow_pos _)
    have bits : (num / den).log2 ≤ units.log2 := (Nat.le_log2 above).mpr (Nat.not_lt.mp less)
    exact le_roundBits_of_dvd positive (Nat.dvd_trans (Nat.pow_dvd_pow 2 (by omega)) fits) large

theorem fits_two_pow (bits : Nat) : Fits (2 ^ bits) := by
  have fits : Fits (1 * Nat.pow 2 bits) := fits_mul_pow (by decide)
  rwa [Nat.one_mul] at fits

/-- A power of two, counted in least subnormals. -/
def scale (bits : Nat) : Nat := 2 ^ bits * perOne

theorem scale_eq (bits : Nat) : scale bits = 2 ^ (bits + 1074) := by
  unfold scale perOne
  generalize 1074 = more
  exact (Nat.pow_add 2 bits more).symm

theorem scale_lt_overflow {bits : Nat} (room : bits < 1024) : scale bits < overflow := by
  rw [scale_eq]
  unfold overflow
  have : bits + 1074 < 2098 := by omega
  generalize 2098 = limit at this ⊢
  exact Nat.pow_lt_pow_right Nat.one_lt_two this

attribute [local irreducible] perOne overflow

theorem scale_add (bits more : Nat) : scale bits * scale more = scale (bits + more) * perOne := by
  simp only [scale, Nat.pow_add, Nat.mul_assoc, Nat.mul_left_comm]

theorem scale_succ (bits : Nat) : scale (bits + 1) = scale bits + scale bits := by
  rw [scale, scale, Nat.pow_succ, ← Nat.add_mul, Nat.mul_two]

namespace Binary64

/-- Finite, with a magnitude up to a power of two. -/
inductive Within (bits : Nat) : Binary64 → Prop where
  | finite {negative : Bool} {magnitude : Magnitude} (small : magnitude.units ≤ scale bits) :
    Within bits (.finite negative magnitude)

variable {bits : Nat} {x y : Binary64}

theorem ofUnits_within {negative : Bool} {num den : Nat} (positive : 0 < den) (room : bits < 1024)
    (small : num ≤ scale bits * den) : (ofUnits negative num den).Within bits := by
  rw [scale_eq] at small
  have rounded := roundBits_le positive (fits_two_pow _) small
  rw [← scale_eq] at rounded
  rw [ofUnits, dif_pos (Nat.lt_of_le_of_lt rounded (scale_lt_overflow room))]
  exact .finite rounded

theorem ofRatio_within {negative : Bool} {num den : Nat} (positive : 0 < den) (room : bits < 1024)
    (small : num ≤ 2 ^ bits * den) : (ofRatio negative num den).Within bits := by
  refine ofUnits_within positive room ?_
  calc num * perOne ≤ 2 ^ bits * den * perOne := Nat.mul_le_mul_right _ small
    _ = scale bits * den := Nat.mul_right_comm ..

theorem ofInt?_within {n : Int} (room : bits < 1024) (small : n.natAbs ≤ 2 ^ bits) :
    ∃ x, ofInt? n = some x ∧ x.Within bits := by
  have within : (ofRatio (n < 0) n.natAbs 1).Within bits := ofRatio_within Nat.one_pos room (by rwa [Nat.mul_one])
  unfold ofInt?
  generalize ofRatio (n < 0) n.natAbs 1 = nearest at within ⊢
  cases within with
  | finite small => exact ⟨_, rfl, .finite small⟩

theorem Within.neg (within : x.Within bits) : x.neg.Within bits := by
  cases within with
  | finite small => exact .finite small

theorem natAbs_signed (negative : Bool) (magnitude : Magnitude) :
    (signed negative magnitude).natAbs = magnitude.units := by
  unfold signed
  split <;> omega

theorem Within.add (first : x.Within bits) (second : y.Within bits) (room : bits + 1 < 1024) :
    (x.add y).Within (bits + 1) := by
  cases first with
  | @finite negative a left =>
    cases second with
    | @finite other b right =>
      simp only [Binary64.add]
      split
      · exact .finite (Nat.zero_le _)
      · refine ofUnits_within Nat.one_pos room ?_
        have sum := Int.natAbs_add_le (signed negative a) (signed other b)
        rw [natAbs_signed, natAbs_signed] at sum
        rw [scale_succ]
        omega

theorem Within.sub (first : x.Within bits) (second : y.Within bits) (room : bits + 1 < 1024) :
    (x.sub y).Within (bits + 1) := first.add second.neg room

theorem Within.mul {more : Nat} (first : x.Within bits) (second : y.Within more) (room : bits + more < 1024) :
    (x.mul y).Within (bits + more) := by
  cases first with
  | finite left =>
    cases second with
    | finite right =>
      refine ofUnits_within perOne_pos room ?_
      rw [← scale_add]
      exact Nat.mul_le_mul left right

/-- A quotient by a number that is not less than one is no larger. -/
theorem Within.div (within : x.Within bits) (room : bits < 1024) {negative : Bool} {divisor : Magnitude}
    (large : perOne ≤ divisor.units) : (x.div (.finite negative divisor)).Within bits := by
  cases within with
  | finite small =>
    have positive : 0 < divisor.units := Nat.lt_of_lt_of_le perOne_pos large
    simp only [Binary64.div, if_neg (Nat.ne_of_gt positive)]
    exact ofUnits_within positive room (Nat.mul_le_mul small large)

theorem Within.floor? (within : x.Within bits) : ∃ n, x.floor? = some n ∧ n.natAbs ≤ 2 ^ bits := by
  cases within with
  | @finite negative magnitude small =>
    refine ⟨_, rfl, ?_⟩
    have positive : (0 : Int) < perOne := Int.ofNat_lt.mpr perOne_pos
    have bound := natAbs_signed negative magnitude
    unfold scale at small
    generalize signed negative magnitude = count at bound ⊢
    generalize 2 ^ bits = limit at small ⊢
    have reach : (count.natAbs : Int) ≤ limit * perOne := by
      rw [bound]
      exact_mod_cast small
    rw [Int.fdiv_eq_ediv_of_nonneg _ (Int.le_of_lt positive)]
    have low : -(limit : Int) ≤ count / perOne := by
      refine Int.le_ediv_of_mul_le positive ?_
      rw [Int.neg_mul]
      omega
    have high : count / perOne ≤ limit := Int.ediv_le_of_le_mul positive (by omega)
    omega

/-- A whole number from one on does not get smaller than one. -/
theorem perOne_le_of_ofInt? {count : Nat} (positive : 0 < count) {negative : Bool} {magnitude : Magnitude}
    (found : ofInt? count = some (.finite negative magnitude)) : perOne ≤ magnitude.units := by
  obtain ⟨bits, one⟩ : ∃ bits, 2 ^ bits = perOne := ⟨_, by rw [← scale_eq 0, scale, Nat.pow_zero, Nat.one_mul]⟩
  have large : 2 ^ bits * 1 ≤ (count : Int).natAbs * perOne := by
    rw [one, Int.natAbs_natCast, Nat.mul_one]
    exact Nat.le_mul_of_pos_left _ positive
  have rounded := le_roundBits Nat.one_pos (fits_two_pow _) large
  rw [one] at rounded
  unfold ofInt? ofRatio ofUnits at found
  split at found
  next =>
    cases found
    exact rounded
  next => cases found

end Binary64

/-- Finite, with a magnitude up to a power of two. -/
inductive Within (bits : Nat) : Number → Prop where
  | int {n : Int} (small : n.natAbs ≤ 2 ^ bits) : Within bits (.int n)
  | float {x : Binary64} (small : x.Within bits) : Within bits (.float x)

section

variable {bits more limit : Nat} {n first second : Number}

theorem Within.neg (within : n.Within bits) : n.neg.Within bits := by
  cases within with
  | int small => exact .int (by rwa [Int.natAbs_neg])
  | float small => exact .float small.neg

theorem Within.mono (within : n.Within bits) (less : bits ≤ limit) : n.Within limit := by
  have power : 2 ^ bits ≤ 2 ^ limit := Nat.pow_le_pow_right Nat.two_pos less
  cases within with
  | int small => exact .int (Nat.le_trans small power)
  | float small =>
    cases small with
    | finite small => exact .float (.finite (Nat.le_trans small (Nat.mul_le_mul_right _ power)))

theorem Within.toFloat (within : n.Within bits) (room : bits < 1024) : Yields n.toFloat (·.Within bits) := by
  cases within with
  | int small =>
    obtain ⟨x, found, within⟩ := Binary64.ofInt?_within room small
    exact ⟨x, by rw [Number.toFloat, toFloat?, found], within⟩
  | float small => exact ⟨_, rfl, small⟩

/-- An operation keeps to a limit if it does so exactly on whole numbers and rounded on all others. -/
theorem combine_within {exact : Int → Int → Int} {rounded : Binary64 → Binary64 → Binary64}
    (exactly : ∀ a b : Int, a.natAbs ≤ 2 ^ bits → b.natAbs ≤ 2 ^ more → (exact a b).natAbs ≤ 2 ^ limit)
    (nearly : ∀ x y, x.Within bits → y.Within more → (rounded x y).Within limit)
    (left : first.Within bits) (right : second.Within more) (room : bits < 1024) (other : more < 1024) :
    Yields (combine exact rounded first second) (·.Within limit) := by
  obtain ⟨x, reads, small⟩ := left.toFloat room
  obtain ⟨y, shows, few⟩ := right.toFloat other
  have float : (do return .float (rounded (← first.toFloat) (← second.toFloat)) : Except Fault Number) =
      .ok (.float (rounded x y)) := by
    rw [reads, shows]
    rfl
  have within := nearly x y small few
  unfold combine
  split
  next a b =>
    cases left with
    | int left =>
      cases right with
      | int right => exact ⟨_, rfl, .int (exactly a b left right)⟩
  next => exact ⟨_, float, .float within⟩

theorem Within.add (left : first.Within bits) (right : second.Within bits) (room : bits + 1 < 1024) :
    Yields (first.add second) (·.Within (bits + 1)) := by
  refine combine_within ?_ (fun _ _ small few => small.add few room) left right (by omega) (by omega)
  intro a b small few
  have sum := Int.natAbs_add_le a b
  omega

theorem Within.sub (left : first.Within bits) (right : second.Within bits) (room : bits + 1 < 1024) :
    Yields (first.sub second) (·.Within (bits + 1)) := by
  refine combine_within ?_ (fun _ _ small few => small.sub few room) left right (by omega) (by omega)
  intro a b small few
  have difference := Int.natAbs_sub_le a b
  omega

theorem Within.mul (left : first.Within bits) (right : second.Within more) (room : bits + more < 1024) :
    Yields (first.mul second) (·.Within (bits + more)) := by
  refine combine_within ?_ (fun _ _ small few => small.mul few room) left right (by omega) (by omega)
  intro a b small few
  rw [Int.natAbs_mul, Nat.pow_add]
  exact Nat.mul_le_mul small few

/-- A quotient by a count is no larger. -/
theorem Within.div (within : n.Within bits) (room : bits < 1024) {count : Nat} (positive : 0 < count)
    (few : count ≤ 2 ^ more) (other : more < 1024) : Yields (n.div (.int count)) (·.Within bits) := by
  have nonzero : (Number.int count).isZero = false := by
    simp only [isZero, beq_eq_false_iff_ne]
    omega
  obtain ⟨x, reads, small⟩ := within.toFloat room
  obtain ⟨y, found, finite⟩ := Binary64.ofInt?_within other (n := count) (by rwa [Int.natAbs_natCast])
  have shows : (Number.int count).toFloat = .ok y := by rw [Number.toFloat, toFloat?, found]
  have float : (do return .float ((← n.toFloat).div (← (Number.int count).toFloat)) : Except Fault Number) =
      .ok (.float (x.div y)) := by
    rw [reads, shows]
    rfl
  have quotient : (x.div y).Within bits := by
    cases finite with
    | finite => exact small.div room (Binary64.perOne_le_of_ofInt? positive found)
  unfold Number.div
  rw [nonzero, if_neg Bool.false_ne_true]
  split
  next a b same =>
    cases same
    cases within with
    | int small =>
      have ratio : (Binary64.ofRatio ((a < 0) != ((count : Int) < 0)) a.natAbs (count : Int).natAbs).Within bits := by
        rw [Int.natAbs_natCast]
        exact Binary64.ofRatio_within positive room (Nat.le_trans small (Nat.le_mul_of_pos_right _ positive))
      generalize Binary64.ofRatio _ a.natAbs (count : Int).natAbs = nearest at ratio ⊢
      cases ratio with
      | finite small => exact ⟨_, rfl, .float (.finite small)⟩
  next => exact ⟨_, float, .float quotient⟩

theorem Within.floor (within : n.Within bits) : Yields n.floor (·.natAbs ≤ 2 ^ bits) := by
  cases within with
  | int small => exact ⟨_, rfl, small⟩
  | float small =>
    obtain ⟨whole, found, small⟩ := small.floor?
    exact ⟨whole, by rw [Number.floor, found], small⟩

end

end Number

end FormRules

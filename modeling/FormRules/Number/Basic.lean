import FormRules.Number.Binary64

/-!
Numbers as documents write them: whole numbers of any size and floating point numbers. Comparisons
are exact; a sum or product of a whole number and a floating point number is a floating point number.
-/

namespace FormRules

inductive Number where
  | int (n : Int)
  | float (x : Number.Binary64)
deriving DecidableEq

namespace Number

/-- The place of a number; a NaN has none. -/
def extent? : Number → Option Extent
  | .int n => some (.point (n * perOne))
  | .float x => x.extent?

def equal (first second : Number) : Bool :=
  match first.extent?, second.extent? with
  | some a, some b => a == b
  | _, _ => false

def less (first second : Number) : Bool :=
  match first.extent?, second.extent? with
  | some a, some b => a.less b
  | _, _ => false

def isNaN : Number → Bool
  | .int _ => false
  | .float x => x.isNaN

def isZero : Number → Bool
  | .int n => n == 0
  | .float (.finite _ magnitude) => magnitude.units == 0
  | .float _ => false

/-- A number as floating point; a whole number that is too large has no such form. -/
def toFloat? : Number → Option Binary64
  | .int n => Binary64.ofInt? n
  | .float x => some x

def neg : Number → Number
  | .int n => .int (-n)
  | .float x => .float x.neg

theorem equal_comm (first second : Number) : first.equal second = second.equal first := by
  unfold equal
  match first.extent?, second.extent? with
  | some a, some b => exact Bool.beq_comm
  | some _, none | none, some _ | none, none => rfl

theorem perOne_pos : 0 < perOne := by
  unfold perOne
  generalize 1074 = bits
  exact Nat.two_pow_pos bits

/-- Whole numbers keep their order and their distinctness on the line of all numbers. -/
theorem less_int (a b : Int) : (Number.int a).less (.int b) = decide (a < b) := by
  have positive : (0 : Int) < perOne := Int.ofNat_lt.2 perOne_pos
  simp only [less, extent?, Extent.less, decide_eq_decide]
  exact ⟨fun h => Int.lt_of_mul_lt_mul_right h (Int.le_of_lt positive),
    fun h => Int.mul_lt_mul_of_pos_right h positive⟩

theorem equal_int (a b : Int) : (Number.int a).equal (.int b) = decide (a = b) := by
  have positive : (perOne : Int) ≠ 0 := by
    have := perOne_pos
    omega
  simp only [equal, extent?]
  by_cases same : a = b
  · rw [same, beq_self_eq_true, decide_eq_true rfl]
  · have apart : a * perOne ≠ b * perOne := fun h => same (Int.eq_of_mul_eq_mul_right positive h)
    rw [beq_false_of_ne fun h => apart (Extent.point.inj h), decide_eq_false same]

end Number

end FormRules

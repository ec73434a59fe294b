import FormRules.Number.Rounding

/-!
Floating point numbers of 64 bits. A finite number is a whole multiple of the least subnormal
2⁻¹⁰⁷⁴, so that sums, products and quotients are rounded from an exact value. Main statements: a
finite number is its own rounding, and its difference from itself is nothing.
-/

namespace FormRules.Number

/-- How many least subnormals make one. -/
def perOne : Nat := Nat.pow 2 1074

/-- The first count of least subnormals that is too large. -/
def overflow : Nat := Nat.pow 2 2098

theorem overflow_pos : 0 < overflow := by
  unfold overflow
  generalize 2098 = bits
  exact Nat.two_pow_pos bits

/-- A magnitude, counted in least subnormals. -/
structure Magnitude where
  units : Nat
  fits : Fits units
  bounded : units < overflow
deriving DecidableEq

inductive Binary64 where
  | nan
  | infinite (negative : Bool)
  | finite (negative : Bool) (magnitude : Magnitude)
deriving DecidableEq

namespace Magnitude

def nothing : Magnitude := ⟨0, by simp [Fits], overflow_pos⟩

/-- Magnitudes are equal when they count the same. -/
theorem ext {first second : Magnitude} (same : first.units = second.units) : first = second := by
  cases first
  cases second
  cases same
  rfl

end Magnitude

namespace Binary64

instance : Inhabited Binary64 := ⟨.nan⟩

def zero : Binary64 := .finite false .nothing

/-- The number nearest to `num / den` least subnormals. -/
def ofUnits (negative : Bool) (num den : Nat) : Binary64 :=
  if bounded : roundBits num den < overflow then
    .finite negative ⟨roundBits num den, fits_roundBits num den, bounded⟩
  else .infinite negative

/-- The number nearest to `num / den`. -/
def ofRatio (negative : Bool) (num den : Nat) : Binary64 := ofUnits negative (num * perOne) den

/-- A number that is finite. -/
def finite? : Binary64 → Option Binary64
  | .finite negative magnitude => some (.finite negative magnitude)
  | _ => none

/-- The number nearest to a whole number, if that is no infinity. -/
def ofInt? (n : Int) : Option Binary64 := (ofRatio (n < 0) n.natAbs 1).finite?

def isNaN : Binary64 → Bool
  | .nan => true
  | _ => false

def neg : Binary64 → Binary64
  | .nan => .nan
  | .infinite negative => .infinite !negative
  | .finite negative magnitude => .finite (!negative) magnitude

def abs : Binary64 → Binary64
  | .nan => .nan
  | .infinite _ => .infinite false
  | .finite _ magnitude => .finite false magnitude

/-- A signed count of least subnormals. -/
def signed (negative : Bool) (magnitude : Magnitude) : Int :=
  if negative then -magnitude.units else magnitude.units

/-- Two opposite numbers sum to the positive zero; only two negative zeros give a negative one. -/
def add : Binary64 → Binary64 → Binary64
  | .nan, _ => .nan
  | _, .nan => .nan
  | .infinite first, .infinite second => if first = second then .infinite first else .nan
  | .infinite first, .finite _ _ => .infinite first
  | .finite _ _, .infinite second => .infinite second
  | .finite first a, .finite second b =>
    let sum := signed first a + signed second b
    if sum = 0 then .finite (first && second) .nothing else ofUnits (sum < 0) sum.natAbs 1

def sub (first second : Binary64) : Binary64 := first.add second.neg

def mul : Binary64 → Binary64 → Binary64
  | .nan, _ => .nan
  | _, .nan => .nan
  | .infinite first, .infinite second => .infinite (first != second)
  | .infinite first, .finite second b => if b.units = 0 then .nan else .infinite (first != second)
  | .finite first a, .infinite second => if a.units = 0 then .nan else .infinite (first != second)
  | .finite first a, .finite second b => ofUnits (first != second) (a.units * b.units) perOne

def div : Binary64 → Binary64 → Binary64
  | .nan, _ => .nan
  | _, .nan => .nan
  | .infinite _, .infinite _ => .nan
  | .infinite first, .finite second _ => .infinite (first != second)
  | .finite first _, .infinite second => .finite (first != second) .nothing
  | .finite first a, .finite second b =>
    if b.units = 0 then if a.units = 0 then .nan else .infinite (first != second)
    else ofUnits (first != second) (a.units * perOne) b.units

/-- The greatest whole number that is not above, for a finite number. -/
def floor? : Binary64 → Option Int
  | .finite negative magnitude => some (Int.fdiv (signed negative magnitude) perOne)
  | _ => none

/-- The whole part, for a finite number. -/
def truncate? : Binary64 → Option Int
  | .finite negative magnitude => some (Int.tdiv (signed negative magnitude) perOne)
  | _ => none

theorem neg_neg (x : Binary64) : x.neg.neg = x := by
  cases x <;> simp [neg]

theorem sub_self (negative : Bool) (magnitude : Magnitude) :
    sub (.finite negative magnitude) (.finite negative magnitude) = .finite false .nothing := by
  have cancels : signed negative magnitude + signed (!negative) magnitude = 0 := by
    cases negative <;> simp only [signed, Bool.not_false, Bool.not_true, if_true, if_false,
      Bool.false_eq_true, Int.add_right_neg, Int.add_left_neg]
  simp [sub, neg, add, cancels]

theorem ofUnits_one (negative : Bool) (magnitude : Magnitude) :
    ofUnits negative magnitude.units 1 = .finite negative magnitude := by
  have same := roundBits_one magnitude.fits
  have bounded : roundBits magnitude.units 1 < overflow := by
    rw [same]
    exact magnitude.bounded
  rw [ofUnits, dif_pos bounded]
  exact congrArg (Binary64.finite negative) (Magnitude.ext same)

end Binary64

/-- Where a number stands on the line of all numbers. -/
inductive Extent where
  | bottom
  | point (units : Int)
  | top
deriving DecidableEq

namespace Extent

def less : Extent → Extent → Bool
  | .bottom, .bottom => false
  | .bottom, _ => true
  | .point _, .bottom => false
  | .point a, .point b => a < b
  | .point _, .top => true
  | .top, _ => false

theorem less_irrefl (x : Extent) : x.less x = false := by
  cases x <;> simp [less]

theorem less_trans {x y z : Extent} (first : x.less y = true) (second : y.less z = true) :
    x.less z = true := by
  cases x <;> cases y <;> cases z <;> simp_all [less]
  omega

/-- Of two places one is before the other unless they are the same. -/
theorem less_total (x y : Extent) : x.less y = true ∨ x = y ∨ y.less x = true := by
  cases x <;> cases y <;> simp [less]
  omega

end Extent

/-- The place of a number; a NaN has none. -/
def Binary64.extent? : Binary64 → Option Extent
  | .nan => none
  | .infinite true => some .bottom
  | .infinite false => some .top
  | .finite negative magnitude => some (.point (signed negative magnitude))

end FormRules.Number

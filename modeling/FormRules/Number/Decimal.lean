import FormRules.Number.Basic

/-!
Decimal forms of numbers: the fewest digits that read back as the same floating point number, a
fixed count of significant digits, and the layout of digits as text.
-/

namespace FormRules.Number

/-- The quotient `num / den`, times a power of ten. -/
def shifted (num den : Nat) (power : Int) : Nat × Nat :=
  if 0 ≤ power then (num * Nat.pow 10 power.toNat, den) else (num, den * Nat.pow 10 (-power).toNat)

def decimalDigits (n : Nat) : List Char := Nat.toDigits 10 n

/-- The greatest power of ten that is not above the positive quotient `num / den`. -/
def leadingPower (num den : Nat) : Int :=
  if den ≤ num then (decimalDigits (num / den)).length - 1
  else
    let places := (decimalDigits (den / num)).length
    if den ≤ num * Nat.pow 10 (places - 1) then -(places - 1 : Nat) else -(places : Nat)

/-- Significant digits, without zeros at the end, and the power of ten of the first one. -/
structure Decimal where
  digits : List Char
  power : Int

/-- Drops the zeros at the end of a coefficient whose last digit counts for the given power. -/
def Decimal.ofCoefficient (coefficient : Nat) (lastPower : Int) : Decimal :=
  let all := decimalDigits coefficient
  let kept := (all.reverse.dropWhile (· == '0')).reverse
  ⟨if kept.isEmpty then ['0'] else kept, lastPower + (all.length - 1 : Nat)⟩

namespace Magnitude

/-- The distance to the neighbours, in least subnormals. -/
def spacing (magnitude : Magnitude) : Nat := Nat.pow 2 (magnitude.units.log2 - 52)

/-- Whether `coefficient` times a power of ten is rounded to the magnitude. The bounds are counted
in quarters of the least subnormal; below a power of two the neighbour is half as far away. -/
def reads (magnitude : Magnitude) (coefficient : Nat) (power : Int) : Bool :=
  let spacing := magnitude.spacing
  let narrow := spacing > 1 && magnitude.units == spacing * Nat.pow 2 52
  let low := 4 * magnitude.units - (if narrow then spacing else 2 * spacing)
  let high := 4 * magnitude.units + 2 * spacing
  let (value, den) := shifted (4 * coefficient * perOne) 1 power
  if (magnitude.units / spacing) % 2 == 0 then low * den ≤ value && value ≤ high * den
  else low * den < value && value < high * den

/-- The coefficient that reads back on the grid of a power of ten, the nearer one of two. -/
def onGrid? (magnitude : Magnitude) (power : Int) : Option Nat :=
  let (num, den) := shifted magnitude.units perOne (-power)
  let near := nearestEven num den
  let far := if near = num / den then near + 1 else num / den
  [near, far].find? (magnitude.reads · power)

/-- The fewest digits that read back; of two such forms the nearer one. -/
def shortest (magnitude : Magnitude) : Decimal :=
  if magnitude.units = 0 then ⟨['0'], 0⟩
  else
    let leading := leadingPower magnitude.units perOne
    let found := (List.range 17).findSome? fun extra =>
      let power := leading - Int.ofNat extra
      (magnitude.onGrid? power).map (Decimal.ofCoefficient · power)
    found.getD (Decimal.ofCoefficient 0 0)

/-- A count of significant digits, a tie going to the even digit. -/
def rounded (magnitude : Magnitude) (count : Nat) : Decimal :=
  if magnitude.units = 0 then ⟨['0'], 0⟩
  else
    let power := leadingPower magnitude.units perOne - (count - 1 : Nat)
    let (num, den) := shifted magnitude.units perOne (-power)
    Decimal.ofCoefficient (nearestEven num den) power

end Magnitude

/-- Which powers of ten are written with a plain point, and whether a whole number shows one. -/
structure DecimalStyle where
  lowest : Int
  beyond : Int
  keepsPoint : Bool

/-- Plain notation from 10⁻⁴ up to 10¹⁶, a whole number ending in a point and a zero. -/
def DecimalStyle.full : DecimalStyle := ⟨-4, 16, true⟩

/-- Plain notation from 10⁻⁴ up to 10⁶, a whole number without a point. -/
def DecimalStyle.brief : DecimalStyle := ⟨-4, 6, false⟩

def zeros (count : Nat) : List Char := List.replicate count '0'

/-- The point and what follows it. -/
def afterPoint (style : DecimalStyle) (digits : List Char) : List Char :=
  if digits.isEmpty then if style.keepsPoint then ['.', '0'] else [] else '.' :: digits

/-- A power of ten with its sign and two digits or more. -/
def exponentChars (power : Int) : List Char :=
  let digits := decimalDigits power.natAbs
  'e' :: (if power < 0 then '-' else '+') :: (zeros (2 - digits.length) ++ digits)

def DecimalStyle.layout (style : DecimalStyle) (decimal : Decimal) : List Char :=
  let digits := decimal.digits
  if style.lowest ≤ decimal.power && decimal.power < style.beyond then
    if decimal.power < 0 then
      '0' :: '.' :: (zeros (-decimal.power - 1).toNat ++ digits)
    else
      let whole := decimal.power.toNat + 1
      digits.take whole ++ zeros (whole - digits.length) ++ afterPoint style (digits.drop whole)
  else
    let tail := digits.drop 1
    digits.take 1 ++ (if tail.isEmpty then [] else '.' :: tail) ++ exponentChars decimal.power

def signChars (negative : Bool) : List Char := if negative then ['-'] else []

namespace Binary64

/-- A number as text under a style, its digits chosen by `digits`. -/
def textWith (style : DecimalStyle) (digits : Magnitude → Decimal) : Binary64 → String
  | .nan => "nan"
  | .infinite negative => String.ofList (signChars negative ++ ['i', 'n', 'f'])
  | .finite negative magnitude =>
    String.ofList (signChars negative ++ style.layout (digits magnitude))

/-- The shortest text that reads back as the same number. -/
def text : Binary64 → String := textWith .full Magnitude.shortest

/-- Six significant digits at most. -/
def briefText : Binary64 → String := textWith .brief (·.rounded 6)

end Binary64

end FormRules.Number

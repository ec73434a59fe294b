import FormRules.Number.Basic
import FormRules.Text.Blank
import FormRules.Text.Digit

/-!
Reading numbers from text. Digits of every decimal script count, single underscores may stand between
digits, and blanks around the number are passed over unless they are information separators.
-/

namespace FormRules.Number

open Text

/-- The digits at the head of a text that follows a digit, and what is left. -/
def moreDigits : List Char → List Nat × List Char
  | '_' :: c :: rest =>
    match decimalValue? c with
    | some value =>
      let (values, left) := moreDigits rest
      (value :: values, left)
    | none => ([], '_' :: c :: rest)
  | c :: rest =>
    match decimalValue? c with
    | some value =>
      let (values, left) := moreDigits rest
      (value :: values, left)
    | none => ([], c :: rest)
  | [] => ([], [])

/-- The digits at the head of a text, and what is left. -/
def digitRun : List Char → List Nat × List Char
  | '_' :: rest => ([], '_' :: rest)
  | chars => moreDigits chars

/-- Whether a character may stand around a number. -/
def isPadding (c : Char) : Bool := isBlank c && !(28 ≤ c.toNat && c.toNat ≤ 31)

def ofDigits (values : List Nat) : Nat := values.foldl (fun sum value => 10 * sum + value) 0

/-- A sign at the head of a text: whether it is a minus, and what is left. -/
def splitSign : List Char → Bool × List Char
  | '-' :: rest => (true, rest)
  | '+' :: rest => (false, rest)
  | chars => (false, chars)

/-- The number `coefficient · 10^power`. Powers that leave the range of floating point are decided
by the count of digits alone. -/
def ofDecimal (negative : Bool) (digits : List Nat) (power : Int) : Binary64 :=
  let coefficient := ofDigits digits
  let leading := digits.dropWhile (· == 0)
  let top := power + leading.length
  if coefficient = 0 || top < -400 then .finite negative .nothing
  else if 400 < top then .infinite negative
  else if 0 ≤ power then .ofRatio negative (coefficient * Nat.pow 10 power.toNat) 1
  else .ofRatio negative coefficient (Nat.pow 10 (-power).toNat)

/-- The exponent at the end of a number, nothing counting as zero. -/
def exponent? : List Char → Option Int
  | [] => some 0
  | mark :: rest =>
    if mark == 'e' || mark == 'E' then
      let (negative, body) := splitSign rest
      match digitRun body with
      | ([], _) => none
      | (digits, []) => some (if negative then -(ofDigits digits : Int) else ofDigits digits)
      | _ => none
    else none

/-- An unsigned decimal number with an optional fraction and exponent. -/
def decimal? (negative : Bool) (chars : List Char) : Option Binary64 :=
  let (whole, rest) := digitRun chars
  let (fraction, tail) :=
    match rest with
    | '.' :: body => digitRun body
    | _ => ([], rest)
  if whole.isEmpty && fraction.isEmpty then none
  else
    (exponent? tail).map fun power =>
      ofDecimal negative (whole ++ fraction) (power - fraction.length)

/-- The floating point number that a text shows; words for infinity and for no number count. -/
def float? (text : String) : Option Binary64 :=
  let (negative, body) := splitSign (trimBy isPadding text.toList)
  let word := String.ofList (body.map Char.toLower)
  if word == "inf" || word == "infinity" then some (.infinite negative)
  else if word == "nan" then some .nan
  else decimal? negative body

/-- The whole number that a text shows, and its count of digits. -/
def int? (text : String) : Option (Int × Nat) :=
  let (negative, body) := splitSign (trimBy isPadding text.toList)
  match digitRun body with
  | ([], _) => none
  | (digits, []) =>
    some (if negative then -(ofDigits digits : Int) else ofDigits digits, digits.length)
  | _ => none

end FormRules.Number

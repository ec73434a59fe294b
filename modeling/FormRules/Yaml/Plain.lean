import FormRules.Moment.Reader
import FormRules.Number.Reader
import FormRules.Yaml.Scalar

/-!
What a plain scalar stands for. Its form alone decides whether it is a truth value, a number, a moment,
or a text.
-/

namespace FormRules.Yaml

/-- What a node stands for. -/
inductive Tag where
  | null
  | truth
  | whole
  | decimal
  | moment
  | text
  | list
  | mapping
  /-- Entries of another mapping, which go before those of this one. -/
  | merge
  /-- The value of a mapping that stands for a single value. -/
  | default
  | unknown
deriving DecidableEq, Repr

namespace Plain

open Number (splitSign)

def isDigitOrBar (c : Char) : Bool := c.isDigit || c == '_'

/-- Digits and bars of a base, at least one. -/
def areDigits (holds : Char → Bool) (chars : List Char) : Bool :=
  !chars.isEmpty && chars.all fun c => holds c || c == '_'

def isBinary (c : Char) : Bool := c == '0' || c == '1'

def isOctal (c : Char) : Bool := '0' ≤ c && c ≤ '7'

/-- Digits with bars between and after them. -/
def startsWithDigit (chars : List Char) : Bool :=
  chars.head?.any Char.isDigit && chars.all isDigitOrBar

/-- The parts of a text between colons. -/
def parts (chars : List Char) : List (List Char) := chars.splitOn ':'

/-- A count of minutes or seconds. -/
def isSixtieth : List Char → Bool
  | [c] => c.isDigit
  | [high, low] => '0' ≤ high && high ≤ '5' && low.isDigit
  | _ => false

/-- A number in base sixty. -/
def isSexagesimal (chars : List Char) : Bool :=
  match parts chars with
  | first :: second :: more => startsWithDigit first && (second :: more).all isSixtieth
  | _ => false

def isWhole (chars : List Char) : Bool :=
  match (splitSign chars).2 with
  | ['0'] => true
  | '0' :: 'b' :: rest => areDigits isBinary rest
  | '0' :: 'x' :: rest => areDigits (fun c => (hexValue? c).isSome) rest
  | '0' :: rest => areDigits isOctal rest
  | body => startsWithDigit body || isSexagesimal body

/-- The exponent of a number, which has a sign; nothing counts as one. -/
def isExponent : List Char → Bool
  | [] => true
  | mark :: sign :: digits =>
    (mark == 'e' || mark == 'E') && (sign == '+' || sign == '-') && !digits.isEmpty &&
      digits.all Char.isDigit
  | _ => false

def infinities : List (List Char) := [".inf".toList, ".Inf".toList, ".INF".toList]

def noNumbers : List (List Char) := [".nan".toList, ".NaN".toList, ".NAN".toList]

def isDecimal (chars : List Char) : Bool :=
  let body := (splitSign chars).2
  let whole := body.takeWhile (· != '.')
  let fraction := (body.drop (whole.length + 1)).takeWhile isDigitOrBar
  let rest := body.drop (whole.length + 1 + fraction.length)
  let isSigned := body.length != chars.length
  noNumbers.contains chars || infinities.contains body ||
    (body.contains '.' &&
      ((startsWithDigit whole && isExponent rest) || (isSexagesimal whole && rest.isEmpty) ||
        (whole.isEmpty && !isSigned && startsWithDigit fraction && isExponent rest)))

/-! Moments. -/

/-- One or two digits. -/
def shortNumber? (chars : List Char) : Option (Nat × List Char) := do
  let (high, rest) ← Moment.digits? 1 0 chars
  match Moment.digits? 1 high rest with
  | some (value, rest) => some (value, rest)
  | none => some (high, rest)

def after? (mark : Char) : List Char → Option (List Char)
  | c :: rest => if c == mark then some rest else none
  | [] => none

/-- A moment as written; a date has no time. -/
structure MomentForm where
  year : Nat
  month : Nat
  day : Nat
  time? : Option (DayTime × Option Int)

/-- An offset at the end of a moment. -/
def offset? (chars : List Char) : Option (Option Int) := do
  match chars.dropWhile isGap with
  | [] => if chars.isEmpty then some none else none
  | ['Z'] => some (some 0)
  | sign :: rest =>
    if sign != '+' && sign != '-' then none
    let (hours, rest) ← shortNumber? rest
    let (minutes, rest) ←
      match rest with
      | ':' :: rest => Moment.digits? 2 0 rest
      | rest => some (0, rest)
    if !rest.isEmpty then none
    let micros : Int := (hours * 60 + minutes) * 60000000
    some (some (if sign == '-' then -micros else micros))

def dayTime? (chars : List Char) : Option (DayTime × Option Int) := do
  let (hour, rest) ← shortNumber? chars
  let (minute, rest) ← Moment.digits? 2 0 (← after? ':' rest)
  let (second, rest) ← Moment.digits? 2 0 (← after? ':' rest)
  let fraction := if rest.head? == some '.' then (rest.drop 1).takeWhile Char.isDigit else []
  let rest := if rest.head? == some '.' then rest.drop (fraction.length + 1) else rest
  let count := min 6 fraction.length
  let (value, _) ← Moment.digits? count 0 fraction
  some (⟨hour, minute, second, value * Nat.pow 10 (6 - count)⟩, ← offset? rest)

def momentForm? (chars : List Char) : Option MomentForm := do
  let (year, rest) ← Moment.digits? 4 0 chars
  let (month, rest) ← shortNumber? (← after? '-' rest)
  let (day, rest) ← shortNumber? (← after? '-' rest)
  match rest with
  | [] => some ⟨year, month, day, none⟩
  | 'T' :: rest | 't' :: rest => some ⟨year, month, day, some (← dayTime? rest)⟩
  | c :: rest =>
    if isGap c then some ⟨year, month, day, some (← dayTime? (rest.dropWhile isGap))⟩ else none

/-- A plain date has two digits for its month and for its day. -/
def isMoment (chars : List Char) : Bool :=
  (momentForm? chars).any fun form => form.time?.isSome || chars.length == 10

/-! Words. -/

def truths : List String := ["yes", "Yes", "YES", "true", "True", "TRUE", "on", "On", "ON"]

def untruths : List String := ["no", "No", "NO", "false", "False", "FALSE", "off", "Off", "OFF"]

def nulls : List String := ["", "~", "null", "Null", "NULL"]

end Plain

/-- What a plain scalar stands for. -/
def Tag.ofPlain (text : String) : Tag :=
  let chars := text.toList
  if Plain.truths.contains text || Plain.untruths.contains text then .truth
  else if Plain.isDecimal chars then .decimal
  else if Plain.isWhole chars then .whole
  else if text == "<<" then .merge
  else if Plain.nulls.contains text then .null
  else if Plain.isMoment chars then .moment
  else if text == "=" then .default
  else .text

/-- What the tags of the common schema stand for. -/
def Tag.names : List (String × Tag) := [
  ("null", .null), ("bool", .truth), ("int", .whole), ("float", .decimal), ("timestamp", .moment),
  ("str", .text), ("seq", .list), ("map", .mapping), ("merge", .merge), ("value", .default)]

/-- The beginning of the tags of the common schema. -/
def Tag.common : String := "tag:yaml.org,2002:"

def Tag.ofName (name : String) : Tag :=
  if name.startsWith Tag.common then
    (Tag.names.lookup (String.ofList (name.toList.drop Tag.common.length))).getD .unknown
  else .unknown

end FormRules.Yaml

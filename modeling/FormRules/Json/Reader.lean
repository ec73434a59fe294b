import FormRules.Json.Malformed
import FormRules.Number.Reader
import FormRules.Value.Basic

/-!
Reading JSON documents. Infinities and the absence of a number may be written by name. Of fields with
one name the last value counts, in the place of the first. Texts are made of characters, so half of a surrogate pair,
which an escape can write by itself, is replaced where it is read.
-/

namespace FormRules.Json

/-- Why reading stopped: a cause, and how many characters stand from its place to the end. -/
inductive Stop where
  | malformed (cause : Cause) (left : Nat)
  | digits (count : Nat)

def stop (cause : Cause) (chars : List Char) : Except Stop α := .error (.malformed cause chars.length)

def isSpace (c : Char) : Bool := c == ' ' || c == '\t' || c == '\n' || c == '\r'

def skipSpace (chars : List Char) : List Char := chars.dropWhile isSpace

def quote : Char := Char.ofNat 34

def backslash : Char := Char.ofNat 92

def escaped? (c : Char) : Option Char :=
  [(quote, quote), (backslash, backslash), ('/', '/'), ('b', '\x08'), ('f', '\x0c'), ('n', '\n'),
    ('r', '\r'), ('t', '\t')].lookup c

def hexValue? (c : Char) : Option Nat :=
  if c.isDigit then some (c.toNat - 48)
  else if 'a' ≤ c && c ≤ 'f' then some (c.toNat - 87)
  else if 'A' ≤ c && c ≤ 'F' then some (c.toNat - 55)
  else none

/-- The value of four digits in base sixteen. -/
def unit? (chars : List Char) : Option Nat :=
  chars.foldl (fun value? c => value?.bind fun value => (hexValue? c).map (16 * value + ·)) (some 0)

def isHigh (unit : Nat) : Bool := 0xD800 ≤ unit && unit < 0xDC00

def isLow (unit : Nat) : Bool := 0xDC00 ≤ unit && unit < 0xE000

/-- The character of one unit. Half of a pair stands for no character and is replaced by the one for that. -/
def unitChar (unit : Nat) : Char :=
  Char.ofNat (if isHigh unit || isLow unit then 0xFFFD else unit)

def pairChar (high low : Nat) : Char :=
  Char.ofNat (0x10000 + (high - 0xD800) * 1024 + (low - 0xDC00))

/-- Whether an escape writes half of a pair by itself; `opened` tells that a first half stands right before. -/
def hasHalf (opened : Bool) : List Char → Bool
  | '\\' :: 'u' :: a :: b :: c :: d :: rest =>
    match unit? [a, b, c, d] with
    | some unit => if isLow unit then !opened || hasHalf false rest else opened || hasHalf (isHigh unit) rest
    | none => opened || hasHalf false rest
  | '\\' :: _ :: rest => opened || hasHalf false rest
  | _ :: rest => opened || hasHalf false rest
  | [] => opened

/-- The unit after a `u`, which needs a character after its four digits. -/
def unitAfter (chars : List Char) : Except Stop (Nat × List Char) :=
  match chars with
  | mark :: a :: b :: c :: d :: next :: rest =>
    match unit? [a, b, c, d] with
    | some unit => .ok (unit, next :: rest)
    | none => stop .unicodeEscape (mark :: a :: b :: c :: d :: next :: rest)
  | chars => stop .unicodeEscape chars

/-- The second half of a pair that is written after its first half. -/
def lowAfter (chars : List Char) : Except Stop (Option (Nat × List Char)) :=
  match chars with
  | slash :: mark :: rest =>
    if slash == backslash && mark == 'u' && 5 ≤ rest.length then do
      let (low, rest) ← unitAfter (mark :: rest)
      return if isLow low then some (low, rest) else none
    else .ok none
  | _ => .ok none

/-- The characters of a text up to its closing quote; `opened` counts those from its opening one. -/
def readText (opened : Nat) (taken : List Char) : Nat → List Char → Except Stop (String × List Char)
  | 0, _ => .error (.malformed .unterminated opened)
  | _ + 1, [] => .error (.malformed .unterminated opened)
  | fuel + 1, c :: rest =>
    if c == quote then .ok (String.ofList taken.reverse, rest)
    else if c.toNat < 32 then stop .control (c :: rest)
    else if c == backslash then
      match rest with
      | [] => .error (.malformed .unterminated opened)
      | 'u' :: tail => do
        let (unit, left) ← unitAfter ('u' :: tail)
        let low? ← if isHigh unit then lowAfter left else pure none
        match low? with
        | some (low, left) => readText opened (pairChar unit low :: taken) fuel left
        | none => readText opened (unitChar unit :: taken) fuel left
      | mark :: tail =>
        match escaped? mark with
        | some plain => readText opened (plain :: taken) fuel tail
        | none => stop .escape (c :: rest)
    else readText opened (c :: taken) fuel rest

/-- A text whose opening quote has been passed. -/
def readQuoted (chars : List Char) : Except Stop (String × List Char) :=
  readText (chars.length + 1) [] (chars.length + 1) chars

def digitValues (digits : List Char) : List Nat := digits.map fun c => c.toNat - 48

/-- The fraction of a number, if a point and a digit come next. -/
def splitFraction (chars : List Char) : Option (List Char) × List Char :=
  match chars with
  | '.' :: rest =>
    if (rest.head?.any Char.isDigit) then (some (rest.takeWhile Char.isDigit), rest.dropWhile Char.isDigit)
    else (none, chars)
  | _ => (none, chars)

/-- The exponent of a number, if there is one. -/
def splitExponent (chars : List Char) : Option Int × List Char :=
  match chars with
  | mark :: rest =>
    if mark == 'e' || mark == 'E' then
      let (negative, digits) := Number.splitSign rest
      if digits.head?.any Char.isDigit then
        let size : Int := Number.ofDigits (digitValues (digits.takeWhile Char.isDigit))
        (some (if negative then -size else size), digits.dropWhile Char.isDigit)
      else (none, chars)
    else (none, chars)
  | [] => (none, [])

/-- A number at the head of a text. -/
def readNumber (chars : List Char) : Except Stop (Number × List Char) :=
  let (negative, body) :=
    match chars with
    | '-' :: rest => (true, rest)
    | _ => (false, chars)
  match body with
  | [] => stop .value chars
  | c :: rest =>
    if !c.isDigit then stop .value chars
    else
      let whole := if c == '0' then [c] else c :: rest.takeWhile Char.isDigit
      let left := if c == '0' then rest else rest.dropWhile Char.isDigit
      let (fraction?, left) := splitFraction left
      let (exponent?, left) := splitExponent left
      if fraction?.isNone && exponent?.isNone then
        if digitLimit < whole.length then .error (.digits whole.length)
        else
          let size : Int := Number.ofDigits (digitValues whole)
          .ok (.int (if negative then -size else size), left)
      else
        let fraction := fraction?.getD []
        let power := exponent?.getD 0 - fraction.length
        .ok (.float (Number.ofDecimal negative (digitValues (whole ++ fraction)) power), left)

/-- The words that stand for values. -/
def words : List (List Char × Value) := [
  (['n', 'u', 'l', 'l'], .null),
  (['t', 'r', 'u', 'e'], .bool true),
  (['f', 'a', 'l', 's', 'e'], .bool false),
  (['N', 'a', 'N'], .float .nan),
  (['I', 'n', 'f', 'i', 'n', 'i', 't', 'y'], .float (.infinite false)),
  (['-', 'I', 'n', 'f', 'i', 'n', 'i', 't', 'y'], .float (.infinite true))]

def readWord? (chars : List Char) : Option (Value × List Char) :=
  words.findSome? fun (word, value) =>
    if word.isPrefixOf chars then some (value, chars.drop word.length) else none

mutual

/-- A value; every value nested in another one takes one of the steps. -/
def readValue : Nat → List Char → Except Stop (Value × List Char)
  | 0, chars => stop .value chars
  | fuel + 1, chars =>
    match chars with
    | [] => stop .value []
    | c :: rest =>
      if c == quote then do
        let (text, left) ← readQuoted rest
        return (.text text, left)
      else if c == '[' then
        match skipSpace rest with
        | ']' :: left => .ok (.list [], left)
        | inside => do
          let (items, left) ← readItems fuel inside
          return (.list items, left)
      else if c == '\x7b' then
        match skipSpace rest with
        | '\x7d' :: left => .ok (.object [], left)
        | inside => do
          let (fields, left) ← readFields fuel [] inside
          return (.object fields, left)
      else
        match readWord? chars with
        | some found => .ok found
        | none => do
          let (number, left) ← readNumber chars
          return (.number number, left)

/-- The items of a list, at least one, up to its closing bracket. -/
def readItems : Nat → List Char → Except Stop (List Value × List Char)
  | 0, chars => stop .value chars
  | fuel + 1, chars => do
    let (item, left) ← readValue fuel chars
    match skipSpace left with
    | ']' :: left => return ([item], left)
    | ',' :: left =>
      let (items, left) ← readItems fuel (skipSpace left)
      return (item :: items, left)
    | left => stop .comma left

/-- The fields of an object, at least one, up to its closing brace. -/
def readFields : Nat → Fields → List Char → Except Stop (Fields × List Char)
  | 0, _, chars => stop .value chars
  | fuel + 1, fields, chars =>
    match chars with
    | [] => stop .name []
    | c :: rest =>
      if c != quote then stop .name chars
      else do
        let (name, left) ← readQuoted rest
        match skipSpace left with
        | ':' :: left =>
          let (value, left) ← readValue fuel (skipSpace left)
          let fields := Keyed.insert fields (.text name) value
          match skipSpace left with
          | '\x7d' :: left => return (fields, left)
          | ',' :: left => readFields fuel fields (skipSpace left)
          | left => stop .comma left
        | left => stop .colon left

end

/-- The value of a whole document. -/
def readDocument (chars : List Char) : Except Stop Value := do
  if chars.head?.any (·.toNat == 0xFEFF) then stop .byteOrderMark chars
  let (value, left) ← readValue (2 * chars.length + 2) (skipSpace chars)
  match skipSpace left with
  | [] => return value
  | left => stop .extra left

/-- A text without the byte order mark that it may start with. -/
def withoutMark (text : String) : String :=
  match text.toList with
  | c :: rest => if c.toNat == 0xFEFF then String.ofList rest else text
  | [] => text

def ofText (text : String) : Except Malformed Value :=
  let chars := text.toList
  match readDocument chars with
  | .ok value => .ok value
  | .error (.malformed cause left) => .error (.at chars cause (chars.length - left))
  | .error (.digits count) => .error (.digits count)

end FormRules.Json

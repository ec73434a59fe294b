import FormRules.Moment.Basic
import FormRules.Text.Quoted

/-!
Reading moments from text. A date is written with or without hyphens, by month and day or by week;
any one character may stand before the time, which is written with or without colons; fractions are
cut to microseconds; a zone is an offset, or a Z for none.
-/

namespace FormRules

/-- Why a text is no moment. -/
inductive MomentFault where
  | unreadable (text : String)
  | misfit (cause : Calendar.Misfit)
  | offset (micros : Int)

def MomentFault.message : MomentFault → String
  | .unreadable text => s!"Invalid isoformat string: {Text.quoted text}"
  | .misfit cause => cause.message
  | .offset micros =>
    "offset must be a timedelta strictly between -timedelta(hours=24) and timedelta(hours=24), " ++
      s!"not {(SpanParts.ofMicros micros).text}."

namespace Moment

def plainDigit? (c : Char) : Option Nat := if c.isDigit then some (c.toNat - 48) else none

/-- The next `count` plain digits as a number, and what follows them. -/
def digits? : Nat → Nat → List Char → Option (Nat × List Char)
  | 0, value, chars => some (value, chars)
  | _ + 1, _, [] => none
  | count + 1, value, c :: rest =>
    (plainDigit? c).bind fun digit => digits? count (10 * value + digit) rest

/-- A date as written. -/
inductive DateForm where
  | monthDay (year month day : Nat)
  | weekDay (year week day : Nat)

/-- A hyphen, where the date is written with hyphens. -/
def hyphen? (hyphens : Bool) (chars : List Char) : Option (List Char) :=
  match hyphens, chars with
  | false, chars => some chars
  | true, '-' :: rest => some rest
  | true, _ => none

def dateForm? (chars : List Char) : Option DateForm := do
  let (year, rest) ← digits? 4 0 chars
  let hyphens := rest.head? == some '-'
  match if hyphens then rest.drop 1 else rest with
  | 'W' :: rest =>
    let (week, rest) ← digits? 2 0 rest
    if rest.isEmpty then some (.weekDay year week 1)
    else
      let rest ← hyphen? hyphens rest
      let (day, _) ← digits? 1 0 rest
      some (.weekDay year week day)
  | rest =>
    let (month, rest) ← digits? 2 0 rest
    let rest ← hyphen? hyphens rest
    let (day, _) ← digits? 2 0 rest
    some (.monthDay year month day)

/-- How many characters the date takes. In a week date without hyphens, the count of digits up to
the next other character tells whether a day of the week is among them. -/
def dateLength (chars : List Char) : Nat :=
  let length := chars.length
  if length = 7 then 7
  else if chars[4]? == some '-' then
    if chars[5]? == some 'W' then
      if chars[8]? == some '-' then
        if 10 < length && (chars[10]?.bind plainDigit?).isSome then 8 else 10
      else 8
    else 10
  else if chars[4]? == some 'W' then
    let stop := 7 + ((chars.drop 7).takeWhile Char.isDigit).length
    if stop < 9 then stop else if stop % 2 = 0 then 7 else 8
  else 8

/-- What follows the fields of a time: the digits of a fraction, or something else. -/
inductive TimeTail where
  | fraction (chars : List Char)
  | other (chars : List Char)

/-- Up to `count` fields of two digits; the first character after the first field says whether
colons stand between them. -/
def timeFields? (colons? : Option Bool) : Nat → List Char → Option (List Nat × TimeTail)
  | 0, chars => some ([], .fraction chars)
  | count + 1, chars => do
    let (value, rest) ← digits? 2 0 chars
    match rest with
    | [] | [_] => some ([value], .other rest)
    | c :: tail =>
      let colons := colons?.getD (c == ':')
      let more (chars : List Char) := do
        let (values, left) ← timeFields? (some colons) count chars
        some (value :: values, left)
      if colons && c == ':' then more tail
      else if c == '.' || c == ',' then some ([value], .fraction tail)
      else if colons then none
      else more rest

/-- A time of day, its numbers unchecked, and what follows it. -/
def dayTime? (chars : List Char) : Option (DayTime × List Char) := do
  let (values, tail) ← timeFields? none 3 chars
  let time : DayTime := ⟨values[0]?.getD 0, values[1]?.getD 0, values[2]?.getD 0, 0⟩
  match tail with
  | .other left => some (time, left)
  | .fraction chars =>
    let count := min 6 chars.length
    let (value, rest) ← digits? count 0 chars
    some ({ time with micro := value * Nat.pow 10 (6 - count) }, rest.dropWhile Char.isDigit)

/-- Whether nothing is left, a NUL counting as the end. -/
def atEnd (chars : List Char) : Bool := chars.head?.all (·.toNat == 0)

/-- A time of day with an optional offset; one of less than a second counts as none. -/
def zonedTime? (chars : List Char) : Option (DayTime × Option Int) := do
  let isSign (c : Char) := c == '+' || c == '-'
  let (time, left) ← dayTime? (chars.takeWhile (!isSign ·))
  match chars.dropWhile (!isSign ·) with
  | [] => if atEnd left then some (time, none) else none
  | sign :: zone =>
    let (span, left) ← dayTime? zone
    let micros : Int := if span.micros < 1000000 then 0 else span.micros
    if atEnd left then some (time, some (if sign == '-' then -micros else micros)) else none

/-- A date and a time as written. -/
def parts? (chars : List Char) : Option (DateForm × DayTime × Option Int) := do
  if chars.length < 7 then none
  let length := dateLength chars
  let date ← dateForm? (chars.take length)
  match chars.drop length with
  | [] => some (date, ⟨0, 0, 0, 0⟩, none)
  | _ :: rest =>
    let (time, offset?) ← zonedTime? rest
    some (date, time, offset?)

/-- The moment of a text in which each Z has been replaced. -/
def ofPlain (text : String) : Except MomentFault Moment :=
  match parts? text.toList with
  | none => .error (.unreadable text)
  | some (form, time, offset?) =>
    let date? : Option (Except Calendar.Misfit Date) :=
      match form with
      | .monthDay year month day => some (Date.of year month day)
      | .weekDay year week day => (Date.weekOrdinal? year week day).map Date.ofOrdinal
    match date?, offset?.filter (fun offset => dayMicros ≤ offset.natAbs) with
    | none, _ => .error (.unreadable text)
    | some _, some offset => .error (.offset offset)
    | some (.error cause), none => .error (.misfit cause)
    | some (.ok date), none =>
      match time.misfit? with
      | some cause => .error (.misfit cause)
      | none => .ok ⟨date, time, offset?⟩

/-- A text with each Z written as the offset of nothing. -/
def withoutZ (text : String) : String :=
  String.ofList (text.toList.flatMap fun c =>
    if c == 'Z' then ['+', '0', '0', ':', '0', '0'] else [c])

def ofText (text : String) : Except MomentFault Moment := ofPlain (withoutZ text)

end Moment

end FormRules

import FormRules.Fault
import FormRules.Value.Order

/-!
Arithmetic on values. Whole numbers stay exact until a floating point number or a quotient is asked
for; texts and lists can be joined and repeated.
-/

namespace FormRules

namespace Number

/-- A whole number as floating point, unless it is too large. -/
def toFloat (n : Number) : Except Fault Binary64 :=
  match n.toFloat? with
  | some x => .ok x
  | none => .error (.overflow .float)

/-- An operation that is exact on whole numbers and rounded on all others. -/
def combine (exact : Int → Int → Int) (rounded : Binary64 → Binary64 → Binary64)
    (first second : Number) : Except Fault Number :=
  match first, second with
  | .int a, .int b => .ok (.int (exact a b))
  | first, second => do return .float (rounded (← first.toFloat) (← second.toFloat))

def add : Number → Number → Except Fault Number := combine (· + ·) Binary64.add

def sub : Number → Number → Except Fault Number := combine (· - ·) Binary64.sub

def mul : Number → Number → Except Fault Number := combine (· * ·) Binary64.mul

/-- A quotient of whole numbers, unless it is too large. -/
def ofQuotient : Binary64 → Except Fault Number
  | .infinite _ => .error (.overflow .quotient)
  | quotient => .ok (.float quotient)

/-- The quotient, rounded once even if both numbers are whole. -/
def div (first second : Number) : Except Fault Number :=
  if second.isZero then .error .zeroDivision
  else
    match first, second with
    | .int a, .int b => ofQuotient (.ofRatio ((a < 0) != (b < 0)) a.natAbs b.natAbs)
    | first, second => do return .float ((← first.toFloat).div (← second.toFloat))

/-- The greatest whole number that is not above. -/
def floor : Number → Except Fault Int
  | .int n => .ok n
  | .float x =>
    match x.floor? with
    | some n => .ok n
    | none => .error (if x.isNaN then .value .noWholePart else .overflow .whole)

end Number

namespace Value

/-- The number that a value counts as; a truth value is 0 or 1. -/
def number? : Value → Option Number
  | .scalar s => s.number?
  | _ => none

/-- The count that a value is for a repetition. -/
def count? (value : Value) : Option Nat :=
  match value.number? with
  | some (.int n) => some n.toNat
  | _ => none

def operands (sign : String) (first second : Value) : Except Fault Value :=
  .error (.type (.operands sign first.kind second.kind))

/-- Applies an operation to two numbers. -/
def onNumbers (sign : String) (operation : Number → Number → Except Fault Number)
    (first second : Value) : Except Fault Value :=
  match first.number?, second.number? with
  | some a, some b => (operation a b).map .number
  | _, _ => operands sign first second

/-- A sum; `sign` is how a fault names the operation. -/
def add (first second : Value) (sign : String := "+") : Except Fault Value :=
  match first, second with
  | .text a, .text b => .ok (.text (a ++ b))
  | .list a, .list b => .ok (.list (a ++ b))
  | .text _, second => .error (.type (.concatenation .text second.kind))
  | .list _, second => .error (.type (.concatenation .list second.kind))
  | first, second => onNumbers sign Number.add first second

def sub : Value → Value → Except Fault Value := onNumbers "-" Number.sub

def repeatText (text : String) (count : Nat) : String :=
  String.ofList (List.replicate count text.toList).flatten

def mul (first second : Value) : Except Fault Value :=
  match first with
  | .text s =>
    match second.count? with
    | some count => .ok (.text (repeatText s count))
    | none => .error (.type (.repetition second.kind))
  | .list items =>
    match second.count? with
    | some count => .ok (.list (List.replicate count items).flatten)
    | none => .error (.type (.repetition second.kind))
  | first => onNumbers "*" Number.mul first second

def div : Value → Value → Except Fault Value := onNumbers "/" Number.div

/-- The opposite of a number. -/
def neg (value : Value) : Except Fault Value :=
  match value.number? with
  | some n => .ok (.number n.neg)
  | none => operands "unary -" value value

/-- Whether a value is above zero. -/
def isPositive (value : Value) : Except Fault Bool := value.compare .greater (.int 0)

end Value

end FormRules

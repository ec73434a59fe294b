import FormRules.Number.Reader
import FormRules.Text.Within
import FormRules.Value.Access
import FormRules.Value.Arithmetic

/-!
Comparing two values by an operator. Equality reads texts as numbers where the other side is a number;
so does order, which fails quietly where there is none.
-/

namespace FormRules

inductive Operator where
  | equal
  | unequal
  | order (comparison : Comparison)
  | isIn
  | notIn
  | contains
  | startsWith
  | endsWith
deriving DecidableEq, Repr

namespace Operator

def named : List (String × Operator) := [
  ("==", .equal), ("!=", .unequal), (">", .order .greater), ("<", .order .less),
  (">=", .order .greaterEqual), ("<=", .order .lessEqual), ("in", .isIn), ("notIn", .notIn),
  ("contains", .contains), ("startswith", .startsWith), ("endswith", .endsWith)]

def ofValue? : Value → Option Operator
  | .text name => named.lookup name
  | _ => none

end Operator

namespace Compare

/-- The number that a value is read as; an empty text counts as zero. -/
def number? (value : Value) : Except Fault (Option Number.Binary64) :=
  match value with
  | .scalar (.text s) => .ok (if Text.allBlank s then some .zero else Number.float? (Text.trim s))
  | .scalar s =>
    match s.number? with
    | some n => n.toFloat.map some
    | none => .ok none
  | _ => .ok none

/-- Whether two numbers that have been read are equal. -/
def equalNumbers (first second : Option Number.Binary64) : Bool :=
  match first, second with
  | some a, some b => (Number.float a).equal (.float b)
  | _, _ => false

/-- Whether a value can be read as a number at all. -/
def isReadable : Kind → Bool
  | .text | .int | .float | .bool => true
  | _ => false

/-- Equality that reads texts and truth values as numbers; null only equals null. -/
def looselyEqual (left right : Value) : Except Fault Bool :=
  if left.isNull || right.isNull then .ok (left.isNull && right.isNull)
  else if left.kind == right.kind then .ok (left.same right)
  else if isReadable left.kind && isReadable right.kind then do
    return equalNumbers (← number? left) (← number? right)
  else .ok (left.same right)

/-- Equality without reading; a truth value never equals a number. -/
def strictlyEqual (left right : Value) : Bool :=
  (left.kind == .bool) == (right.kind == .bool) && left.same right

def listed (items : List Value) (value : Value) : Bool := items.any (strictlyEqual · value)

def isNumeric : Kind → Bool
  | .int | .float | .bool => true
  | _ => false

/-- Order, with a number on one side making a number of the other one. -/
def ordered (comparison : Comparison) (left right : Value) : Except Fault Bool :=
  if isNumeric left.kind || isNumeric right.kind then do
    match ← number? left, ← number? right with
    | some a, some b => return comparison.numbers (.float a) (.float b)
    | _, _ => return false
  else
    match left.compare comparison right with
    | .ok answer => .ok answer
    | .error _ => .ok false

/-- What an operator says of two values. -/
def holds (operator : Operator) (left right : Value) : Except Fault Bool :=
  match operator with
  | .equal => looselyEqual left right
  | .unequal => (looselyEqual left right).map not
  | .order comparison => ordered comparison left right
  | .isIn =>
    match right with
    | .list items => .ok (listed items left)
    | _ => .ok false
  | .notIn =>
    match right with
    | .list items => .ok (!listed items left)
    | _ => .ok true
  | .contains =>
    match left, right with
    | .text outer, .text inner => .ok (Text.contains outer inner)
    | .list items, value => .ok (listed items value)
    | _, _ => .ok false
  | .startsWith =>
    match left, right with
    | .text text, .text start => .ok (Text.startsWith text start)
    | _, _ => .ok false
  | .endsWith =>
    match left, right with
    | .text text, .text ending => .ok (Text.endsWith text ending)
    | _, _ => .ok false

/-- What a value says as an operator; one that names none never holds. -/
def holdsBy (operator left right : Value) : Except Fault Bool :=
  match Operator.ofValue? operator with
  | some operator => holds operator left right
  | none => .ok false

end Compare

end FormRules

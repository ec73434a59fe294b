import FormRules.Fault
import FormRules.Value.Equality

/-!
The order of values: numbers by what they count, texts by their characters, lists by their first
items that differ, dates and moments by time. Values of other kinds, or of two kinds, have no order.
-/

namespace FormRules

namespace Comparison

/-- The answer for two values of which the first is before, equal to, or after the second. -/
def ofOrder (comparison : Comparison) (before equal after : Bool) : Bool :=
  match comparison with
  | .less => before
  | .lessEqual => before || equal
  | .greater => after
  | .greaterEqual => after || equal

def numbers (comparison : Comparison) (first second : Number) : Bool :=
  comparison.ofOrder (first.less second) (first.equal second) (second.less first)

def texts (comparison : Comparison) (first second : String) : Bool :=
  comparison.ofOrder (decide (first < second)) (first == second) (decide (second < first))

def unordered (comparison : Comparison) (first second : Kind) : Except Fault Bool :=
  .error (.type (.unordered comparison first second))

end Comparison

/-- The order of plain data. -/
def Scalar.compare (first : Scalar) (comparison : Comparison) (second : Scalar) : Except Fault Bool :=
  match first.number?, second.number? with
  | some a, some b => .ok (comparison.numbers a b)
  | _, _ =>
    match first, second with
    | .text a, .text b => .ok (comparison.texts a b)
    | .date a, .date b => .ok (comparison.ofOrder (a.less b) (a == b) (b.less a))
    | .moment a, .moment b =>
      match a.earlier? b, b.earlier? a with
      | some before, some after => .ok (comparison.ofOrder before (a.equal b) after)
      | _, _ => comparison.unordered .moment .moment
    | a, b => comparison.unordered a.kind b.kind

namespace Value

mutual

def compare (comparison : Comparison) : Value → Value → Except Fault Bool
  | .scalar first, .scalar second => first.compare comparison second
  | .list first, .list second => compareItems comparison first second
  | first, second => comparison.unordered first.kind second.kind
termination_by structural first => first

def compareItems (comparison : Comparison) : List Value → List Value → Except Fault Bool
  | [], [] => .ok (comparison.ofOrder false true false)
  | [], _ :: _ => .ok (comparison.ofOrder true false false)
  | _ :: _, [] => .ok (comparison.ofOrder false false true)
  | item :: items, other :: others =>
    if item.coincides other then compareItems comparison items others
    else compare comparison item other
termination_by structural first => first

end

end Value

end FormRules

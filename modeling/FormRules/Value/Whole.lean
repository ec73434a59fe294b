import FormRules.Number.Reader
import FormRules.Value.Access

/-!
Whole numbers and objects made of looser values, as settings give them.
-/

namespace FormRules.Value

/-- The whole part of a number, or the whole number that a text shows. -/
def toWhole (value : Value) : Except Fault Int :=
  match value with
  | .scalar (.bool b) => .ok (if b then 1 else 0)
  | .int n => .ok n
  | .float x =>
    match x.truncate? with
    | some n => .ok n
    | none => .error (if x.isNaN then .value .noWholePart else .overflow .whole)
  | .text s =>
    match Number.int? s with
    | some (n, digits) =>
      if Json.digitLimit < digits then .error (.value (.digits digits)) else .ok n
    | none => .error (.value (.notWhole s))
  | value => .error (.type (.notWhole value.kind))

/-- Fields from pairs, a pair being anything that holds two values. -/
def ofPairs (fields : Fields) (index : Nat) : List Value → Except Fault Fields
  | [] => .ok fields
  | pair :: pairs =>
    match pair.items with
    | .error _ => .error (.type (.notPair index))
    | .ok [key, value] => do
      let key ← key.asKey
      ofPairs (Keyed.insert fields key value) (index + 1) pairs
    | .ok items => .error (.value (.pairLength index items.length))

/-- The fields of an object, or of a list of pairs. -/
def toFields (value : Value) : Except Fault Fields :=
  match value with
  | .object fields => .ok fields
  | value => do ofPairs [] 0 (← value.items)

end FormRules.Value

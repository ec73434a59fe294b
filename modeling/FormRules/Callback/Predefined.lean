import FormRules.Callback.Basic
import FormRules.Condition.Compare

/-!
The callbacks that every registry knows. Those on one value look at it alone; those on several fields
look at the values of their targets, and at the field's own value under a key of its own.
-/

namespace FormRules.Callback

/-- Whether a value is missing or has nothing in it. -/
def isEmpty : Value → Bool
  | .null => true
  | .text s => Text.allBlank s
  | .list items => items.isEmpty
  | .object fields => fields.isEmpty
  | _ => false

/-- The fields of the values of several fields, asked for by an operation of objects. -/
def asValues (values : Value) (operation : String) : Except Fault Fields :=
  match values with
  | .object fields => .ok fields
  | values => .error (.attribute values.kind operation)

/-- The values of the targets, the field's own value left out. -/
def targets (values : Value) : Except Fault (List Value) := do
  let fields ← asValues values "items"
  return (fields.filter fun (key, _) => !key.same ownKey).map (·.2)

/-- The first target that is not null. -/
def firstTarget (values : Value) : Except Fault Value := do
  return ((← targets values).find? (!·.isNull)).getD .null

def allValues (values : Value) : Except Fault (List Value) := do
  return (← asValues values "values").map (·.2)

def ownValue (values : Value) : Except Fault Value := do
  let fields ← asValues values "get"
  return (Keyed.find? fields ownKey).getD .null

/-- The number that a value is read as; null and blank texts count as zero. -/
def number? (value : Value) : Except Fault (Option Number.Binary64) :=
  match value with
  | .null => .ok (some .zero)
  | .text s => .ok (if Text.allBlank s then some .zero else Number.float? (Text.trim s))
  | value =>
    match value.number? with
    | some n => n.toFloat.map some
    | none => .ok none

def numberOrZero (value : Value) : Except Fault Number.Binary64 := do
  match ← number? value with
  | some x => return if (Number.float x).isZero then .zero else x
  | none => return .zero

/-- The clock time of a date, a moment or a text that shows one, its offset left out. -/
def moment? (value : Value) : Option Moment :=
  match value with
  | .moment m => some m.bare
  | .date d => some d.midnight
  | .text s =>
    if s.isEmpty then none
    else
      match Moment.ofText s with
      | .ok m => some m.bare
      | .error _ => none
  | _ => none

/-- Whether each of some things is in order with the next one. -/
def chained (ordered : α → α → Bool) : List α → Bool
  | first :: second :: rest => ordered first second && chained ordered (second :: rest)
  | _ => true

def notLater (first second : Moment) : Bool := first.shown ≤ second.shown

def answer (b : Bool) : Except Fault Value := .ok (.bool b)

def allEqual : Callback := fun values _ => do
  match ← allValues values with
  | first :: second :: rest =>
    answer ((second :: rest).all fun value => Compare.strictlyEqual value first)
  | _ => answer false

def datesAscending : Callback := fun values _ => do
  let moments := (← allValues values).map moment?
  match moments.mapM id with
  | some (first :: second :: rest) => answer (chained notLater (first :: second :: rest))
  | _ => answer false

def numbersAscending : Callback := fun values _ => do
  let numbers ← (← allValues values).mapM number?
  match numbers.mapM id with
  | some (first :: second :: rest) =>
    answer (chained (fun a b => Comparison.lessEqual.numbers (.float a) (.float b))
      (first :: second :: rest))
  | _ => answer false

def notEmpty : Callback := fun value _ => answer !isEmpty value

/-- Accepts a value that is read as a number on the right side of zero. -/
def comparedToZero (comparison : Comparison) : Callback := fun value _ => do
  let number? ← number? value
  answer (!value.isNull && number?.any fun x => comparison.numbers (.float x) (.int 0))

def targetNotEmpty : Callback := fun values _ => do answer !isEmpty (← firstTarget values)

def targetIs (expected : Bool) : Callback := fun values _ => do
  match ← firstTarget values with
  | .bool b => answer (b == expected)
  | _ => answer false

/-- A parameter of the callback, null where there is none. -/
def param (context : Context) (name : String) : Except Fault Value :=
  (context.params.orElse (.object [])).field name

def equalsParam : Callback := fun values context => do
  let target ← firstTarget values
  answer (target.same (← param context "value"))

def paramValues (context : Context) : Except Fault Value := do
  return (← param context "values").orElse (.list [])

def valueIn (expected : Bool) : Callback := fun values context => do
  let target ← firstTarget values
  answer ((← target.heldBy (← paramValues context)) == expected)

def containsAny : Callback := fun values context => do
  match ← firstTarget values with
  | .list items =>
    let wanted ← (← paramValues context).items
    answer (wanted.any (Value.contains items))
  | _ => answer false

/-- The sum of numbers from the left, beginning with nothing. -/
def sum (numbers : List Number.Binary64) : Number.Binary64 :=
  numbers.foldl Number.Binary64.add .zero

def sumEquals : Callback := fun values _ => do
  let numbers ← (← targets values).mapM numberOrZero
  match ← number? (← ownValue values) with
  | some own => answer ((Number.float own).equal (.float (sum numbers)))
  | none => answer false

def sumIsHundred : Callback := fun values _ => do
  let numbers ← (← targets values).mapM numberOrZero
  answer ((Number.float (sum numbers)).equal (.int 100))

def dateInRange : Callback := fun values _ => do
  match ← targets values with
  | first :: second :: _ =>
    match moment? first, moment? second, moment? (← ownValue values) with
    | some start, some stop, some current => answer (notLater start current && notLater current stop)
    | _, _, _ => answer true
  | _ => answer true

def atLeastOne : Callback := fun values _ => do answer ((← targets values).any (!isEmpty ·))

def productEquals : Callback := fun values _ => do
  match ← targets values with
  | [] => answer true
  | targets =>
    let numbers ← targets.mapM numberOrZero
    let product := numbers.foldl Number.Binary64.mul (.ofRatio false 1 1)
    let own ← numberOrZero (← ownValue values)
    answer ((Number.float own).equal (.float product))

/-- A predefined callback with its name, and whether it looks at several fields. -/
structure Predefined where
  name : String
  callback : Callback
  crossField : Bool
  description : String

def predefined : List Predefined := [
  ⟨"passwordMatch", allEqual, true,
    "All specified fields have the same value (password confirmation)"⟩,
  ⟨"emailMatch", allEqual, true, "All specified email fields have the same value"⟩,
  ⟨"dateRangeValid", datesAscending, true, "Dates are in ascending order"⟩,
  ⟨"numericRangeValid", numbersAscending, true, "Numbers are in ascending order"⟩,
  ⟨"notEmpty", notEmpty, false, "Value is not empty (strings, lists, mappings)"⟩,
  ⟨"isPositive", comparedToZero .greater, false, "Value is a positive number"⟩,
  ⟨"isNonNegative", comparedToZero .greaterEqual, false, "Value is a number >= 0"⟩,
  ⟨"isNotEmpty", targetNotEmpty, true, "Target field is not empty"⟩,
  ⟨"isTrue", targetIs true, true, "Target field is true"⟩,
  ⟨"isFalse", targetIs false, true, "Target field is false"⟩,
  ⟨"equals", equalsParam, true, "Target field equals params.value"⟩,
  ⟨"valueIn", valueIn true, true, "Target field is one of params.values"⟩,
  ⟨"valueNotIn", valueIn false, true, "Target field is none of params.values"⟩,
  ⟨"arrayContainsAny", containsAny, true, "Target list contains any of params.values"⟩,
  ⟨"validateSumEquals", sumEquals, true, "Current value equals the sum of the target fields"⟩,
  ⟨"validatePercentageSum", sumIsHundred, true, "Target fields sum to exactly 100"⟩,
  ⟨"validateDateInRange", dateInRange, true, "Current date lies between the two target dates"⟩,
  ⟨"atLeastOneRequired", atLeastOne, true, "At least one target field is not empty"⟩,
  ⟨"validateProductEquals", productEquals, true,
    "Current value equals the product of the target fields"⟩]

end FormRules.Callback

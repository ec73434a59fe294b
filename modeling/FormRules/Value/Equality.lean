import FormRules.Value.Basic

/-!
Equality of values. Lists are equal item by item; objects are equal when they have as many fields and
each field of one is found in the other, in whatever order. What stands inside a list or an object need not be equal
if it is one with the other: the documents of a pass share one NaN, which is not equal to itself, but a list that
holds it is.
-/

namespace FormRules.Value

def isNaN : Value → Bool
  | .scalar s => s.isNaN
  | _ => false

mutual

def same : Value → Value → Bool
  | .scalar first, .scalar second => first.same second
  | .list first, .list second => sameItems first second
  | .object first, .object second => first.length == second.length && sameFields first second
  | .handle first, .handle second => first == second
  | _, _ => false
termination_by structural first => first

def sameItems : List Value → List Value → Bool
  | [], [] => true
  | item :: items, other :: others => (item.same other || item.isNaN && other.isNaN) && sameItems items others
  | _, _ => false
termination_by structural first => first

def sameFields : List (Scalar × Value) → Fields → Bool
  | [], _ => true
  | (key, value) :: fields, others =>
    (match Keyed.find? others key with
      | some other => value.same other || value.isNaN && other.isNaN
      | none => false) && sameFields fields others
termination_by structural first => first

end

/-- Whether two values count as one where they stand inside others. -/
def coincides (first second : Value) : Bool := first.same second || first.isNaN && second.isNaN

/-- Whether a list has an item that is one with a value. -/
def contains (items : List Value) (value : Value) : Bool := items.any (·.coincides value)

theorem same_text (first second : String) : same (.text first) (.text second) = (first == second) := by
  rw [same, Scalar.same_text]

/-- A value that is the same as a text is that text. -/
theorem eq_of_same_text {value : Value} {name : String} (equal : value.same (.text name) = true) :
    value = .text name := by
  cases value with
  | scalar key => exact congrArg Value.scalar (Keyed.eq_of_same_text (by rwa [text, same] at equal))
  | list _ | object _ | handle _ => simp [same] at equal

theorem coincides_text (value : Value) (name : String) : value.coincides (.text name) = value.same (.text name) := by
  have known : isNaN (.text name) = false := rfl
  rw [coincides, known, Bool.and_false, Bool.or_false]

end FormRules.Value

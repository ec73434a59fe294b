import FormRules.Fault
import FormRules.Value.Basic

/-!
Values that a document of another party can hold: no numbers without bounds, and only plain data. Main
statement: a text is always one.
-/

namespace FormRules.Json

def checkNumber : Number → Except Fault Unit
  | .int _ => .ok ()
  | .float (.finite _ _) => .ok ()
  | .float _ => .error (.value .notCompliant)

def checkScalar : Scalar → Except Fault Unit
  | .null | .bool _ | .text _ => .ok ()
  | .number n => checkNumber n
  | scalar => .error (.type (.notSerializable scalar.kind))

def checkKey : Scalar → Except Fault Unit
  | .null | .bool _ | .text _ => .ok ()
  | .number n => checkNumber n
  | scalar => .error (.type (.notKey scalar.kind))

mutual

/-- Finds the first part of a value that cannot be sent. -/
def checkSendable : Value → Except Fault Unit
  | .scalar s => checkScalar s
  | .list items => checkItems items
  | .object fields => checkFields fields
  | .handle _ => .error (.type (.notSerializable .function))

def checkItems : List Value → Except Fault Unit
  | [] => .ok ()
  | item :: items => do
    checkSendable item
    checkItems items

def checkFields : List (Scalar × Value) → Except Fault Unit
  | [] => .ok ()
  | (key, value) :: fields => do
    checkKey key
    checkSendable value
    checkFields fields

end

theorem checkSendable_text (text : String) : checkSendable (.text text) = .ok () := rfl

end FormRules.Json

import FormRules.Fault
import FormRules.Text.Within
import FormRules.Value.Equality

/-!
Taking values apart as a reader expects them to be: by field, item by item, as a key or as a text. A
value of another kind is a fault.
-/

namespace FormRules

namespace Value

/-- The fields of an object that a reader asks for values. -/
def asObject (value : Value) : Except Fault Fields :=
  match value with
  | .object fields => .ok fields
  | value => .error (.attribute value.kind "get")

theorem eq_of_asObject {value : Value} {fields : Fields} (known : value.asObject = .ok fields) :
    value = .object fields := by
  cases value with
  | object held => exact congrArg Value.object (Except.ok.inj known)
  | scalar | list | handle => cases known

/-- The value of a field, null where there is none. -/
def field (value : Value) (name : String) : Except Fault Value :=
  value.asObject.map (Fields.get · name)

/-- The text on which an operation of texts is called. -/
def asText (value : Value) (operation : String) : Except Fault String :=
  match value with
  | .text s => .ok s
  | value => .error (.attribute value.kind operation)

/-- A value used as a key; lists and objects cannot be keys. -/
def asKey (value : Value) : Except Fault Scalar :=
  match value with
  | .scalar s => .ok s
  | .handle name => .ok (.text name)
  | value => .error (.type (.unhashable value.kind.name))

/-- What a value holds, one after the other: items, characters or keys. -/
def items (value : Value) : Except Fault (List Value) :=
  match value with
  | .list items => .ok items
  | .text s => .ok (s.toList.map fun c => .text (String.singleton c))
  | .object fields => .ok ((Keyed.keys fields).map .scalar)
  | value => .error (.type (.notIterable value.kind))

/-- How many items, characters or keys a value holds. -/
def size (value : Value) : Except Fault Nat :=
  match value with
  | .list items => .ok items.length
  | .text s => .ok s.length
  | .object fields => .ok fields.length
  | value => .error (.type (.noLength value.kind))

/-- Values that have to be texts, counted from a given index. -/
def allTexts (index : Nat) : List Value → Except Fault (List String)
  | [] => .ok []
  | .text s :: rest => (allTexts (index + 1) rest).map (s :: ·)
  | item :: _ => .error (.type (.joined index item.kind))

/-- Texts with another text between them; an item of another kind is a fault. -/
def joinWith (between : String) (items : List Value) : Except Fault String :=
  (allTexts 0 items).map (String.intercalate between)

/-- Texts joined by commas. -/
def joinTexts : List Value → Except Fault String := joinWith ", "

/-- Whether a value is among what another one holds; a text holds the texts that it contains. -/
def heldBy (value container : Value) : Except Fault Bool :=
  match container with
  | .list items => .ok (contains items value)
  | .text outer =>
    match value with
    | .text inner => .ok (Text.contains outer inner)
    | value => .error (.type (.notInText value.kind))
  | .object fields => value.asKey.map (Keyed.has fields)
  | container => .error (.type (.notContainer container.kind))

end Value

end FormRules

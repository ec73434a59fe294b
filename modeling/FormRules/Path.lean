import FormRules.Text.Digit
import FormRules.Text.Within
import FormRules.Number.Reader
import FormRules.Value.Access

/-!
Dotted paths into a document. Reading steps into objects by name and into lists by position; writing
makes the objects that are missing on the way.
-/

namespace FormRules.Path

def segments (path : String) : List String := Text.split '.' path

/-- The position in a list that a segment names. A segment of digit characters that are no decimal
digits is a fault. -/
def position? (segment : String) : Except Fault (Option Nat) :=
  if Text.allDigits segment then
    match Number.int? segment with
    | some (position, digits) =>
      if Json.digitLimit < digits then .error (.value (.digits digits)) else .ok (some position.toNat)
    | none => .error (.value (.notWhole segment))
  else .ok none

/-- One step into an object or a list. -/
def step? (container : Value) (segment : String) : Except Fault (Option Value) :=
  match container with
  | .object fields => .ok (Keyed.find? fields (.text segment))
  | .list items => (position? segment).map fun position? => position?.bind (items[·]?)
  | _ => .ok none

/-- The value that steps lead to, if all of them succeed. -/
def walk? (value : Value) : List String → Except Fault (Option Value)
  | [] => .ok (some value)
  | segment :: more => do
    match ← step? value segment with
    | some inner => walk? inner more
    | none => return none

/-- The value at a path, if there is one. -/
def find? (root : Value) (path : String) : Except Fault (Option Value) := walk? root (segments path)

/-- The fields with a value written at a path of the given segments. -/
def writeFields (fields : Fields) (segment : String) (more : List String) (value : Value) : Fields :=
  match more with
  | [] => Keyed.insert fields (.text segment) value
  | next :: more =>
    let inner :=
      match Fields.get fields segment with
      | .object inner => inner
      | _ => []
    Keyed.insert fields (.text segment) (.object (writeFields inner next more value))

/-- A document with a value written at a path; empty segments are passed over. -/
def write (root : Value) (path : String) (value : Value) : Except Fault Value :=
  match (segments path).filter (· != "") with
  | [] => .ok root
  | segment :: more =>
    match root with
    | .object fields => .ok (.object (writeFields fields segment more value))
    | root => .error (if more.isEmpty then .type (.noAssignment root.kind) else .attribute root.kind "get")

end FormRules.Path

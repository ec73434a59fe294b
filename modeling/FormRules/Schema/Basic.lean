import FormRules.Pattern.Reader
import FormRules.Pattern.Search
import FormRules.Value.Order

/-!
Schemas: what a value has to be, as a list of demands in order. A value violates a schema through the
first demand that it does not meet. Demands on a kind of value have nothing to say about other kinds.
-/

namespace FormRules

inductive ValueType where
  | null
  | text
  | number
  | list
  | object
  | switch
deriving DecidableEq, Repr

namespace ValueType

def ofName? : String → Option ValueType
  | "null" => some .null
  | "string" => some .text
  | "number" => some .number
  | "array" => some .list
  | "object" => some .object
  | "boolean" => some .switch
  | _ => none

def fits (type : ValueType) (value : Value) : Bool :=
  match type, value with
  | .null, .null => true
  | .text, .text _ => true
  | .number, .number _ => true
  | .list, .list _ => true
  | .object, .object _ => true
  | .switch, .bool _ => true
  | _, _ => false

end ValueType

/-- The sorts of demands. -/
inductive Keyword where
  | type
  | constant
  | pattern
  | minLength
  | maxLength
  | minItems
  | maxItems
  | minimum
  | maximum
  | anyOf
  | negation
deriving DecidableEq, Repr

namespace Schema

inductive Demand where
  | type (type : ValueType)
  | constant (value : Value)
  | pattern (pattern : Value)
  | bound (keyword : Keyword) (limit : Value)
  | anyOf (options : List (List Demand))
  | negation (inner : List Demand)

def Demand.keyword : Demand → Keyword
  | .type _ => .type
  | .constant _ => .constant
  | .pattern _ => .pattern
  | .bound keyword _ => keyword
  | .anyOf _ => .anyOf
  | .negation _ => .negation

/-- Whether a text matches what a schema gives as its pattern. -/
def matchesPattern (pattern : Value) (text : String) : Except Fault Bool :=
  match pattern with
  | .text source =>
    match Pattern.ofText source with
    | .ok pattern => .ok (pattern.found text)
    | .error cause => .error (.pattern cause)
  | .scalar _ | .handle _ => .error (.type .notPattern)
  | pattern => .error (.type (.unhashable pattern.kind.name))

/-- Whether a value stays within a limit of a given sort. -/
def within (keyword : Keyword) (limit value : Value) : Except Fault Bool :=
  let beyond (comparison : Comparison) (measure : Value) : Except Fault Bool := do
    return !(← measure.compare comparison limit)
  match keyword, value with
  | .minLength, .text s => beyond .less (.int s.length)
  | .maxLength, .text s => beyond .greater (.int s.length)
  | .minItems, .list items => beyond .less (.int items.length)
  | .maxItems, .list items => beyond .greater (.int items.length)
  | .minimum, .number n => beyond .less (.number n)
  | .maximum, .number n => beyond .greater (.number n)
  | _, _ => .ok true

mutual

/-- Whether a value meets a demand. -/
def meets (value : Value) : Demand → Except Fault Bool
  | .type type => .ok (type.fits value)
  | .constant expected => .ok (value.same expected)
  | .pattern pattern =>
    match value with
    | .text s => matchesPattern pattern s
    | _ => .ok true
  | .bound keyword limit => within keyword limit value
  | .anyOf options => meetsAny value options
  | .negation inner => (meetsAll value inner).map not

/-- Whether a value meets every demand; all of them are looked at. -/
def meetsAll (value : Value) : List Demand → Except Fault Bool
  | [] => .ok true
  | demand :: demands => do
    let first ← meets value demand
    let others ← meetsAll value demands
    return first && others

def meetsAny (value : Value) : List (List Demand) → Except Fault Bool
  | [] => .ok false
  | option :: options => do
    if ← meetsAll value option then return true else meetsAny value options

end

/-- The first demand that a value does not meet; all of them are looked at. -/
def violated? (value : Value) : List Demand → Except Fault (Option Keyword)
  | [] => .ok none
  | demand :: demands => do
    let met ← meets value demand
    let later? ← violated? value demands
    return if met then later? else some demand.keyword

theorem violated?_eq_none {value : Value} {demands : List Demand} :
    violated? value demands = .ok none ↔ meetsAll value demands = .ok true := by
  induction demands with
  | nil => simp [violated?, meetsAll]
  | cons demand demands ih =>
    rw [violated?, meetsAll]
    cases meets value demand with
    | error fault => simp [bind, Except.bind]
    | ok met =>
      cases later : violated? value demands <;> cases others : meetsAll value demands <;>
        cases met <;> simp_all [bind, Except.bind, pure, Except.pure]

end Schema

end FormRules

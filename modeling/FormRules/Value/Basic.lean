import FormRules.Moment.Basic
import FormRules.Number.Basic

/-!
Values of open documents: plain data, lists, and objects whose keys keep the order of their first
appearance. Main statements: what was put under a key is found there, and other keys are untouched.
-/

namespace FormRules

/-- Plain data, which may also be a key. -/
inductive Scalar where
  | null
  | bool (b : Bool)
  | number (n : Number)
  | text (s : String)
  | date (d : Date)
  | moment (m : Moment)
deriving DecidableEq

/-- A value of a document; a handle stands for a function that a rule holds itself. -/
inductive Value where
  | scalar (s : Scalar)
  | list (items : List Value)
  | object (fields : List (Scalar × Value))
  | handle (name : String)

/-- Entries under keys, in the order in which the keys came. -/
abbrev Keyed (α : Type) := List (Scalar × α)

/-- The fields of an object. -/
abbrev Fields := Keyed Value

namespace Value

@[match_pattern] abbrev null : Value := .scalar .null
@[match_pattern] abbrev bool (b : Bool) : Value := .scalar (.bool b)
@[match_pattern] abbrev number (n : Number) : Value := .scalar (.number n)
@[match_pattern] abbrev int (n : Int) : Value := .scalar (.number (.int n))
@[match_pattern] abbrev float (x : Number.Binary64) : Value := .scalar (.number (.float x))
@[match_pattern] abbrev text (s : String) : Value := .scalar (.text s)
@[match_pattern] abbrev date (d : Date) : Value := .scalar (.date d)
@[match_pattern] abbrev moment (m : Moment) : Value := .scalar (.moment m)

instance : Inhabited Value := ⟨.null⟩

def isNull : Value → Bool
  | .null => true
  | _ => false

/-- Whether a value counts as present. -/
def truthy : Value → Bool
  | .null => false
  | .bool b => b
  | .number n => !n.isZero
  | .text s => !s.isEmpty
  | .scalar _ => true
  | .list items => !items.isEmpty
  | .object fields => !fields.isEmpty
  | .handle _ => true

/-- A value, or another one where it does not count as present. -/
def orElse (value other : Value) : Value := if value.truthy then value else other

def isText : Value → Bool
  | .text _ => true
  | _ => false

/-- Texts as a list of values. -/
def texts (items : List String) : Value := .list (items.map .text)

end Value

/-- The kind of a value, as faults name it. -/
inductive Kind where
  | null
  | bool
  | int
  | float
  | text
  | list
  | object
  | date
  | moment
  | function
deriving DecidableEq, Repr

namespace Kind

def name : Kind → String
  | .null => "NoneType"
  | .bool => "bool"
  | .int => "int"
  | .float => "float"
  | .text => "str"
  | .list => "list"
  | .object => "dict"
  | .date => "datetime.date"
  | .moment => "datetime.datetime"
  | .function => "function"

/-- The name without the family it belongs to. -/
def shortName : Kind → String
  | .date => "date"
  | .moment => "datetime"
  | kind => kind.name

end Kind

def Scalar.kind : Scalar → Kind
  | .null => .null
  | .bool _ => .bool
  | .number (.int _) => .int
  | .number (.float _) => .float
  | .text _ => .text
  | .date _ => .date
  | .moment _ => .moment

def Value.kind : Value → Kind
  | .scalar s => s.kind
  | .list _ => .list
  | .object _ => .object
  | .handle _ => .function

namespace Scalar

/-- The number that a scalar counts as: a truth value is 0 or 1. -/
def number? : Scalar → Option Number
  | .bool b => some (.int (if b then 1 else 0))
  | .number n => some n
  | _ => none

/-- Equality of plain data; numbers are compared by what they count. -/
def same (first second : Scalar) : Bool :=
  match first.number?, second.number? with
  | some a, some b => a.equal b
  | _, _ =>
    match first, second with
    | .moment a, .moment b => a.equal b
    | a, b => a == b

def isNaN : Scalar → Bool
  | .number n => n.isNaN
  | _ => false

/-- Whether two scalars are one key or one item. Documents hold no two NaN that could be told apart, so a NaN is one
with itself, though not equal to itself. -/
def coincides (first second : Scalar) : Bool := first.same second || first == second

theorem same_text (first second : String) : same (.text first) (.text second) = (first == second) := by
  show (Scalar.text first == .text second) = (first == second)
  by_cases equal : first = second
  · simp [equal]
  · have apart : Scalar.text first ≠ Scalar.text second := fun h => equal (Scalar.text.inj h)
    rw [beq_false_of_ne equal, beq_false_of_ne apart]

theorem same_comm (first second : Scalar) : first.same second = second.same first := by
  cases first <;> cases second <;>
    first
    | exact Number.equal_comm _ _
    | exact Moment.equal_comm _ _
    | exact Bool.beq_comm

/-- What is one with a text is equal to it. -/
theorem coincides_of_text (name : String) (scalar : Scalar) :
    coincides (.text name) scalar = same (.text name) scalar := by
  have self : same (.text name) (.text name) = true := by rw [same_text, beq_self_eq_true]
  rw [Bool.eq_iff_iff, coincides, Bool.or_eq_true, beq_iff_eq]
  exact ⟨fun one => one.elim id fun equal => equal ▸ self, .inl⟩

theorem coincides_text (first second : String) : coincides (.text first) (.text second) = (first == second) := by
  rw [coincides_of_text, same_text]

theorem coincides_iff {first second : Scalar} :
    first.coincides second = true ↔ first.same second = true ∨ first = second := by
  rw [coincides, Bool.or_eq_true, beq_iff_eq]

theorem coincides_self (scalar : Scalar) : scalar.coincides scalar = true := coincides_iff.mpr (.inr rfl)

theorem coincides_comm (first second : Scalar) : first.coincides second = second.coincides first := by
  rw [coincides, coincides, same_comm, Bool.beq_comm]

end Scalar

namespace Keyed

/-- The entry under a key. -/
def find? (entries : Keyed α) (key : Scalar) : Option α :=
  match entries with
  | [] => none
  | (other, entry) :: rest => if other.coincides key then some entry else find? rest key

def has (entries : Keyed α) (key : Scalar) : Bool := (find? entries key).isSome

/-- Puts an entry under a key, which keeps its place if it is there. -/
def insert (entries : Keyed α) (key : Scalar) (entry : α) : Keyed α :=
  match entries with
  | [] => [(key, entry)]
  | (other, old) :: rest =>
    if other.coincides key then (other, entry) :: rest else (other, old) :: insert rest key entry

def erase (entries : Keyed α) (key : Scalar) : Keyed α := entries.filter (!·.1.coincides key)

/-- Entries put one after the other among those that are there. -/
def merge (entries more : Keyed α) : Keyed α :=
  more.foldl (fun all (key, entry) => insert all key entry) entries

def ofPairs (pairs : List (Scalar × α)) : Keyed α := merge [] pairs

def keys (entries : Keyed α) : List Scalar := entries.map (·.1)

/-- A scalar that is the same as a text is that text. -/
theorem eq_of_same_text {key : Scalar} {name : String} (equal : key.same (.text name) = true) :
    key = .text name := by
  cases key <;> simp_all [Scalar.same, Scalar.number?]

theorem eq_of_coincides_text {key : Scalar} {name : String} (equal : key.coincides (.text name) = true) :
    key = .text name :=
  (Scalar.coincides_iff.mp equal).elim eq_of_same_text id

theorem find?_insert_text_self (entries : Keyed α) (name : String) (entry : α) :
    find? (insert entries (.text name) entry) (.text name) = some entry := by
  induction entries with
  | nil => simp [insert, find?, Scalar.coincides_text]
  | cons first rest ih =>
    obtain ⟨other, old⟩ := first
    by_cases here : other.coincides (.text name) <;> simp [insert, find?, here, ih]

theorem find?_insert_text_other (entries : Keyed α) {name other : String} (apart : name ≠ other)
    (entry : α) : find? (insert entries (.text name) entry) (.text other) = find? entries (.text other) := by
  induction entries with
  | nil => simp [insert, find?, Scalar.coincides_text, apart]
  | cons first rest ih =>
    obtain ⟨key, old⟩ := first
    by_cases here : key.coincides (.text name) = true
    · have := eq_of_coincides_text here
      subst this
      simp [insert, find?, Scalar.coincides_text, apart]
    · simp only [insert, here, find?, Bool.false_eq_true, if_false, ih]

end Keyed

namespace Fields

def has (fields : Fields) (name : String) : Bool := Keyed.has fields (.text name)

/-- The value under a name, null where there is none. -/
def get (fields : Fields) (name : String) : Value := (Keyed.find? fields (.text name)).getD .null

end Fields

/-- An object of named values. -/
def Value.ofFields (fields : List (String × Value)) : Value :=
  .object (fields.map fun (name, value) => (.text name, value))

end FormRules

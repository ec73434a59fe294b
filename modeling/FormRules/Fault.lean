import FormRules.Json.Malformed
import FormRules.Moment.Clock
import FormRules.Moment.Reader
import FormRules.Pattern.Malformed
import FormRules.Value.Basic
import FormRules.Yaml.Malformed

/-!
Why an operation stops. Faults are kept by cause; their families decide who may answer for them, and
each has one message.
-/

namespace FormRules

/-- The ways to ask for the order of two values. -/
inductive Comparison where
  | less
  | lessEqual
  | greater
  | greaterEqual
deriving DecidableEq, Repr

def Comparison.sign : Comparison → String
  | .less => "<"
  | .lessEqual => "<="
  | .greater => ">"
  | .greaterEqual => ">="

/-- A value of a kind that an operation has no use for. -/
inductive TypeFault where
  | notIterable (kind : Kind)
  | notContainer (kind : Kind)
  | notInText (kind : Kind)
  | notCallable (kind : Kind)
  | notMapping (kind : Kind)
  | noAssignment (kind : Kind)
  | noLength (kind : Kind)
  | unhashable (name : String)
  | unordered (comparison : Comparison) (first second : Kind)
  | operands (sign : String) (first second : Kind)
  | concatenation (first second : Kind)
  | repetition (kind : Kind)
  | joined (index : Nat) (kind : Kind)
  | notSerializable (kind : Kind)
  | notKey (kind : Kind)
  | notWhole (kind : Kind)
  | spanUnit (kind : Kind)
  | notPattern
  | notPair (index : Nat)
  | notAddress (kind : Kind) (shown : String)
  | unknownEntry (name : String)
  | halfPair

def TypeFault.message : TypeFault → String
  | .notIterable kind => s!"'{kind.name}' object is not iterable"
  | .notContainer kind => s!"argument of type '{kind.name}' is not iterable"
  | .notInText kind => s!"'in <string>' requires string as left operand, not {kind.name}"
  | .notCallable kind => s!"'{kind.name}' object is not callable"
  | .notMapping kind => s!"'{kind.name}' object is not a mapping"
  | .noAssignment kind => s!"'{kind.name}' object does not support item assignment"
  | .noLength kind => s!"object of type '{kind.name}' has no len()"
  | .unhashable name => s!"unhashable type: '{name}'"
  | .unordered comparison first second =>
    s!"'{comparison.sign}' not supported between instances of '{first.name}' and '{second.name}'"
  | .operands sign first second =>
    s!"unsupported operand type(s) for {sign}: '{first.name}' and '{second.name}'"
  | .concatenation first second =>
    s!"can only concatenate {first.name} (not \"{second.name}\") to {first.name}"
  | .repetition kind => s!"can't multiply sequence by non-int of type '{kind.name}'"
  | .joined index kind => s!"sequence item {index}: expected str instance, {kind.name} found"
  | .notSerializable kind => s!"Object of type {kind.shortName} is not JSON serializable"
  | .notKey kind => s!"keys must be str, int, float, bool or None, not {kind.name}"
  | .notWhole kind =>
    "int() argument must be a string, a bytes-like object or a real number, " ++ s!"not '{kind.name}'"
  | .spanUnit kind => s!"unsupported type for timedelta milliseconds component: {kind.name}"
  | .notPattern => "first argument must be string or compiled pattern"
  | .notPair index => s!"cannot convert dictionary update sequence element #{index} to a sequence"
  | .notAddress kind shown =>
    s!"Invalid type for url.  Expected str or httpx.URL, got <class '{kind.name}'>: {shown}"
  | .unknownEntry name => s!"got an unexpected keyword argument '{name}'"
  | .halfPair => "a text with half of a surrogate pair cannot be kept"

/-- A value of the right kind that is out of place. -/
inductive ValueFault where
  | moment (cause : MomentFault)
  | clock (cause : ClockFault)
  | notWhole (text : String) (base : Nat := 10)
  | notFloat (text : String)
  | digits (count : Nat)
  | noWholePart
  | mode (shown : String)
  | pairLength (index length : Nat)
  | callback (message : String)
  | transport
  | notCompliant
  | noDataMapping (path : String)
  | noSettingsMapping (path : String)

def ValueFault.message : ValueFault → String
  | .moment cause => cause.message
  | .clock cause => cause.message
  | .notWhole text base => s!"invalid literal for int() with base {base}: {Text.quotedStart 200 text}"
  | .notFloat text => s!"could not convert string to float: {Text.quoted text}"
  | .digits count => Json.digitsMessage count
  | .noWholePart => "cannot convert float NaN to integer"
  | .mode shown => s!"Unknown execution mode: {shown}"
  | .pairLength index length =>
    s!"dictionary update sequence element #{index} has length {length}; 2 is required"
  | .callback message => message
  | .transport => "transport broke"
  | .notCompliant => "Out of range float values are not JSON compliant"
  | .noDataMapping path => s!"Data file must contain a mapping: {path}"
  | .noSettingsMapping path => s!"Settings file must contain a mapping: {path}"

/-- A number or a moment that is too large. -/
inductive OverflowFault where
  | float
  | quotient
  | whole
  | spanUnits
  | spanDays (days : Int)
  | date

def OverflowFault.message : OverflowFault → String
  | .float => "int too large to convert to float"
  | .quotient => "integer division result too large for a float"
  | .whole => "cannot convert float infinity to integer"
  | .spanUnits => "Python int too large to convert to C int"
  | .spanDays days => s!"days={days}; must have magnitude <= 999999999"
  | .date => "date value out of range"

/-- A document that is not there. -/
inductive MissingFile where
  | form (path : String)
  | other (path : String)

def MissingFile.message : MissingFile → String
  | .form path => s!"Form configuration not found: {path}"
  | .other path => s!"[Errno 2] No such file or directory: {Text.quoted path}"

/-- What is wrong at a place of a form. -/
structure Complaint where
  path : String
  message : String

inductive Fault where
  | type (cause : TypeFault)
  | attribute (kind : Kind) (name : String)
  | value (cause : ValueFault)
  | overflow (cause : OverflowFault)
  | zeroDivision
  | nothingStored
  | pattern (cause : Pattern.Malformed)
  | backend (message : String)
  | missing (file : MissingFile)
  | directory (path : String)
  | json (cause : Json.Malformed)
  | yaml (cause : Yaml.Malformed)
  | form (path : String) (complaints : List Complaint)

namespace Fault

def message : Fault → String
  | .type cause => cause.message
  | .attribute kind name => s!"'{kind.name}' object has no attribute '{name}'"
  | .value cause => cause.message
  | .overflow cause => cause.message
  | .zeroDivision => "float division by zero"
  | .nothingStored => "'dictionary is empty'"
  | .pattern cause => cause.message
  | .backend message => message
  | .missing file => file.message
  | .directory path => s!"[Errno 21] Is a directory: {Text.quoted path}"
  | .json cause => cause.message
  | .yaml cause => cause.message
  | .form path complaints => s!"Invalid form configuration: {path} ({complaints.length} errors)"

/-- Whether a fault lies in a value, in the wording of a document or in a form, which the one who
gave them can answer for. -/
def isValueFault : Fault → Bool
  | .value _ | .json _ | .form _ _ | .yaml .code => true
  | _ => false

end Fault

/-- A moment whose reading failed is out of place. -/
def Moment.ofTextOrFault (text : String) : Except Fault Moment :=
  match Moment.ofText text with
  | .ok moment => .ok moment
  | .error cause => .error (.value (.moment cause))

end FormRules

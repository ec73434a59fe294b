/-!
What can be wrong with the text of a JSON document, and where.
-/

namespace FormRules.Json

inductive Cause where
  | value
  | name
  | colon
  | comma
  | extra
  | unterminated
  | control
  | escape
  | unicodeEscape
  | byteOrderMark
deriving DecidableEq, Repr

def Cause.message : Cause → String
  | .value => "Expecting value"
  | .name => "Expecting property name enclosed in double quotes"
  | .colon => "Expecting ':' delimiter"
  | .comma => "Expecting ',' delimiter"
  | .extra => "Extra data"
  | .unterminated => "Unterminated string starting at"
  | .control => "Invalid control character at"
  | .escape => "Invalid \\escape"
  | .unicodeEscape => "Invalid \\uXXXX escape"
  | .byteOrderMark => "Unexpected UTF-8 BOM (decode using utf-8-sig)"

/-- Why a text is no JSON document; a whole number may also have too many digits to be read. -/
inductive Malformed where
  | wording (cause : Cause) (line column position : Nat)
  | digits (count : Nat)
deriving DecidableEq, Repr

/-- The most digits of a whole number. -/
def digitLimit : Nat := 4300

def digitsMessage (count : Nat) : String :=
  s!"Exceeds the limit ({digitLimit} digits) for integer string conversion: value has {count} digits; " ++
    "use sys.set_int_max_str_digits() to increase the limit"

def Malformed.message : Malformed → String
  | .wording cause line column position =>
    s!"{cause.message}: line {line} column {column} (char {position})"
  | .digits count => digitsMessage count

/-- A cause at a position of a text, counted in lines and columns too. -/
def Malformed.at (chars : List Char) (cause : Cause) (position : Nat) : Malformed :=
  let before := chars.take position
  .wording cause (before.count '\n' + 1) ((before.reverse.takeWhile (· != '\n')).length + 1) position

end FormRules.Json

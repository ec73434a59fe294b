import FormRules.Text.Quoted
import FormRules.Value.Order
import FormRules.Value.Text

/-!
Writing JSON documents: in one line with sorted names and plain characters only, as a key that stands
for a value, or over several lines in the order of the value.
-/

namespace FormRules.Json

open Text (hexDigits)

/-- How the characters of a text are written. -/
inductive Charset where
  | ascii
  | full
deriving DecidableEq

def escapeUnit (unit : Nat) : List Char := '\\' :: 'u' :: hexDigits 4 unit

def escapeChar (charset : Charset) (c : Char) : List Char :=
  let point := c.toNat
  if point = 34 || point = 92 then ['\\', c]
  else if c == '\n' then ['\\', 'n']
  else if c == '\r' then ['\\', 'r']
  else if c == '\t' then ['\\', 't']
  else if point = 12 then ['\\', 'f']
  else if point = 8 then ['\\', 'b']
  else if point < 32 then escapeUnit point
  else if charset = .full || point < 127 then [c]
  else if point < 0x10000 then escapeUnit point
  else
    let above := point - 0x10000
    escapeUnit (0xD800 + above / 1024) ++ escapeUnit (0xDC00 + above % 1024)

def writeText (charset : Charset) (text : String) : String :=
  String.ofList ('"' :: text.toList.flatMap (escapeChar charset) ++ ['"'])

/-- A number in JSON; a whole number is taken to be short enough, as those of documents are (`digitLimit`). -/
def writeNumber : Number → String
  | .int n => toString n
  | .float .nan => "NaN"
  | .float (.infinite negative) => if negative then "-Infinity" else "Infinity"
  | .float x => x.text

def writeBool (b : Bool) : String := if b then "true" else "false"

/-- The name under which a field is written. -/
def nameOf : Scalar → Except Fault String
  | .text s => .ok s
  | .null => .ok "null"
  | .bool b => .ok (writeBool b)
  | .number n => .ok (writeNumber n)
  | key => .error (.type (.notKey key.kind))

/-- Plain data; what JSON does not know is written as text, if that is allowed. -/
def writeScalar (charset : Charset) (asText : Bool) (scalar : Scalar) : Except Fault String :=
  match scalar with
  | .text s => .ok (writeText charset s)
  | .date _ | .moment _ =>
    if asText then .ok (writeText charset scalar.shown)
    else .error (.type (.notSerializable scalar.kind))
  | scalar => nameOf scalar

/-- Puts an entry before the first one that has a greater key. -/
def insertByKey (key : Scalar) (entry : α) : List (Scalar × α) → Except Fault (List (Scalar × α))
  | [] => .ok [(key, entry)]
  | (other, old) :: rest => do
    if ← key.compare .less other then return (key, entry) :: (other, old) :: rest
    else return (other, old) :: (← insertByKey key entry rest)

def sortByKey (entries : List (Scalar × α)) : Except Fault (List (Scalar × α)) :=
  entries.foldlM (fun sorted (key, entry) => insertByKey key entry sorted) []

mutual

/-- A value in one line, names sorted, plain characters only. -/
def canonical (asText : Bool) : Value → Except Fault String
  | .scalar s => writeScalar .ascii asText s
  | .list items => do
    return "[" ++ String.intercalate ", " (← canonicalItems asText items) ++ "]"
  | .object fields => do
    let sorted ← sortByKey (canonicalFields asText fields)
    let texts ← sorted.mapM fun (key, text?) => do
      return writeText .ascii (← nameOf key) ++ ": " ++ (← text?)
    return "\x7b" ++ String.intercalate ", " texts ++ "\x7d"
  | .handle name =>
    if asText then .ok (writeText .ascii (Value.handle name).shown)
    else .error (.type (.notSerializable .function))

def canonicalItems (asText : Bool) : List Value → Except Fault (List String)
  | [] => .ok []
  | item :: items => do return (← canonical asText item) :: (← canonicalItems asText items)

def canonicalFields (asText : Bool) : List (Scalar × Value) → List (Scalar × Except Fault String)
  | [] => []
  | (key, value) :: fields => (key, canonical asText value) :: canonicalFields asText fields

end

/-- A new line with the blanks of a depth. -/
def newLine (depth : Nat) : String := String.ofList ('\n' :: List.replicate (2 * depth) ' ')

/-- Entries between brackets, each on a line of its own. -/
def bracketed (opening closing : String) (depth : Nat) (entries : List String) : String :=
  if entries.isEmpty then opening ++ closing
  else opening ++ newLine (depth + 1) ++ String.intercalate ("," ++ newLine (depth + 1)) entries ++
    newLine depth ++ closing

mutual

/-- A value over several lines, each depth two blanks further in. -/
def indented (depth : Nat) : Value → Except Fault String
  | .scalar s => writeScalar .full true s
  | .list items => do return bracketed "[" "]" depth (← indentedItems (depth + 1) items)
  | .object fields => do return bracketed "\x7b" "\x7d" depth (← indentedFields (depth + 1) fields)
  | .handle name => .ok (writeText .full (Value.handle name).shown)

def indentedItems (depth : Nat) : List Value → Except Fault (List String)
  | [] => .ok []
  | item :: items => do return (← indented depth item) :: (← indentedItems depth items)

def indentedFields (depth : Nat) : List (Scalar × Value) → Except Fault (List String)
  | [] => .ok []
  | (key, value) :: fields => do
    let field := writeText .full (← nameOf key) ++ ": " ++ (← indented depth value)
    return field :: (← indentedFields depth fields)

end

end FormRules.Json

import FormRules.Yaml.Scalar
import FormRules.Yaml.Token

/-!
The labels of nodes: the names of anchors, tags, and the directives that say what the handles of tags
stand for.
-/

namespace FormRules.Yaml

def isNameChar (c : Char) : Bool :=
  ('0' ≤ c && c ≤ '9') || ('A' ≤ c && c ≤ 'Z') || ('a' ≤ c && c ≤ 'z') || c == '-' || c == '_'

/-- Whether a part of a line ends at a place, tabs not counting as gaps. -/
def endsPart (next? : Option Char) : Bool := next?.all fun c => isBreak c || c == ' '

def skipSpaces (cursor : Cursor) : Cursor := cursor.dropWhile (· == ' ')

/-- A name, which may not be empty. -/
def name (cursor : Cursor) : Reading (String × Cursor) :=
  let (chars, cursor) := cursor.span isNameChar
  if chars.isEmpty then .error .mark else .ok (String.ofList chars, cursor)

/-- The marks that may follow the name of an anchor at once. -/
def anchorEnds : List Char := ['?', ':', ',', ']', '\x7d', '%', '@', Char.ofNat 96]

/-- The name of an anchor or an alias after its mark. -/
def anchorName (cursor : Cursor) : Reading (String × Cursor) := do
  let (found, cursor) ← name cursor.next
  let next? := cursor.peek?
  if Cursor.endsWord next? || next?.any anchorEnds.contains then return (found, cursor)
  else throw .mark

/-! Tags. -/

/-- A handle: a name between exclamation marks, or one mark alone before a space. -/
def handle (cursor : Cursor) : Reading (String × Cursor) := do
  if cursor.peek? != some '!' then throw .mark
  let after := cursor.next
  if after.peek? == some ' ' then return ("!", after)
  let (chars, after) := after.span isNameChar
  if after.peek? != some '!' then throw .mark
  return (String.ofList ('!' :: chars ++ ['!']), after.next)

def isAddressChar (c : Char) : Bool :=
  isNameChar c || (Char.ofNat 39 :: ";/?:@&=+$,.!~*()[]%".toList).contains c

/-- A byte written as two digits in base sixteen. -/
def byte? (high low : Char) : Option UInt8 := do
  return UInt8.ofNat (16 * (← hexValue? high) + (← hexValue? low))

/-- The bytes that are written one after the other, each after a percent sign, and what follows. -/
def bytes : List Char → Reading (List UInt8 × List Char)
  | '%' :: high :: low :: rest =>
    match byte? high low with
    | none => .error .mark
    | some byte => do
      let (more, rest) ← bytes rest
      return (byte :: more, rest)
  | '%' :: _ => .error .mark
  | rest => .ok ([], rest)

/-- The characters of an address, its bytes decoded. -/
def addressFrom : Nat → List Char → Reading (List Char)
  | 0, _ => .ok []
  | _, [] => .ok []
  | fuel + 1, '%' :: rest => do
    let (codes, rest) ← bytes ('%' :: rest)
    match String.fromUTF8? ⟨codes.toArray⟩ with
    | none => throw .mark
    | some text => return text.toList ++ (← addressFrom fuel rest)
  | fuel + 1, c :: rest => do return c :: (← addressFrom fuel rest)

def address (cursor : Cursor) : Reading (String × Cursor) := do
  let (chars, cursor) := cursor.span isAddressChar
  if chars.isEmpty then throw .mark
  return (String.ofList (← addressFrom chars.length chars), cursor)

/-- A tag in its three forms: in angle brackets, as a mark alone, or as an address after a handle. -/
def tag (cursor : Cursor) : Reading (Token × Cursor) := do
  let after := cursor.next
  let (found, cursor) ←
    if after.peek? == some '<' then do
      let (suffix, cursor) ← address after.next
      if cursor.peek? != some '>' then throw .mark
      pure (Token.tag none suffix, cursor.next)
    else if Cursor.endsWord after.peek? then pure (Token.tag none "!", after)
    else do
      let word := after.rest.takeWhile fun c => !endsPart (some c)
      let (start, cursor) ← if word.contains '!' then handle cursor else pure ("!", after)
      let (suffix, cursor) ← address cursor
      pure (Token.tag (some start) suffix, cursor)
  if endsPart cursor.peek? then return (found, cursor) else throw .mark

/-! Directives. -/

def digits (cursor : Cursor) : Reading (Nat × Cursor) :=
  let (chars, cursor) := cursor.span Char.isDigit
  if chars.isEmpty then .error .mark
  else .ok (chars.foldl (fun sum c => 10 * sum + (c.toNat - 48)) 0, cursor)

/-- The version of a document, of which the first number counts. -/
def version (cursor : Cursor) : Reading (Directive × Cursor) := do
  let (major, cursor) ← digits (skipSpaces cursor)
  if cursor.peek? != some '.' then throw .mark
  let (_, cursor) ← digits cursor.next
  if endsPart cursor.peek? then return (.version major, cursor) else throw .mark

/-- What a handle stands for. -/
def meaning (cursor : Cursor) : Reading (Directive × Cursor) := do
  let (start, cursor) ← handle (skipSpaces cursor)
  if cursor.peek? != some ' ' then throw .mark
  let (text, cursor) ← address (skipSpaces cursor)
  if endsPart cursor.peek? then return (.handle start text, cursor) else throw .mark

def directive (cursor : Cursor) : Reading (Token × Cursor) := do
  let (word, cursor) ← name cursor.next
  if !endsPart cursor.peek? then throw .mark
  let (content, cursor) ←
    match word with
    | "YAML" => version cursor
    | "TAG" => meaning cursor
    | _ => pure (.other, cursor.spanLine.2)
  let cursor := skipSpaces cursor
  let cursor := if cursor.peek? == some '#' then cursor.spanLine.2 else cursor
  if !Cursor.endsLine cursor.peek? then throw .mark
  return (.directive content, cursor.next)

end FormRules.Yaml

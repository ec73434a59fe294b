import FormRules.Yaml.Label

/-!
The tokens of a text. What stands before a colon is known to be a key only when the colon comes, so
the places that may turn out to be keys are kept until then. Main statement: a token that has been
settled stays in its place.
-/

namespace FormRules.Yaml

/-- A place that may turn out to be a key. -/
structure Candidate where
  depth : Nat
  /-- How many tokens stand before it. -/
  number : Nat
  /-- Whether nothing but a key may stand here. -/
  required : Bool
  index : Nat
  line : Nat
  column : Nat

/-- A text of which some tokens have been read. -/
structure Lexer where
  cursor : Cursor
  /-- How many brackets are open. -/
  depth : Nat := 0
  indent : Int := -1
  /-- The indentations of the blocks around the present one. -/
  outer : List Int := []
  keyAllowed : Bool := true
  candidates : List Candidate := []
  tokens : List Token := []
  isDone : Bool := false

/-- The tokens of a text up to the place where reading stopped, and why it stopped. -/
structure Tokens where
  tokens : List Token
  stop : Malformed := .mark

namespace Lexer

def inFlow (lexer : Lexer) : Bool := lexer.depth != 0

def column (lexer : Lexer) : Nat := lexer.cursor.column

def emit (token : Token) (lexer : Lexer) : Lexer := { lexer with tokens := lexer.tokens ++ [token] }

def allowKey (allowed : Bool) (lexer : Lexer) : Lexer := { lexer with keyAllowed := allowed }

def moveTo (cursor : Cursor) (lexer : Lexer) : Lexer := { lexer with cursor }

/-! Keys that may be. -/

/-- Gives up some of the places that may be keys. -/
def giveUp (gone : Candidate → Bool) (lexer : Lexer) : Reading Lexer :=
  if lexer.candidates.any fun candidate => gone candidate && candidate.required then .error .mark
  else .ok { lexer with candidates := lexer.candidates.filter (!gone ·) }

/-- Gives up the place between the present brackets. -/
def giveUpHere (lexer : Lexer) : Reading Lexer := lexer.giveUp (·.depth == lexer.depth)

/-- A key stands on one line and is not long. -/
def giveUpStale (lexer : Lexer) : Reading Lexer :=
  lexer.giveUp fun candidate =>
    candidate.line != lexer.cursor.line || candidate.index + 1024 < lexer.cursor.index

/-- Keeps the present place as one that may be a key, if a key may stand here. -/
def noteCandidate (lexer : Lexer) : Reading Lexer := do
  if !lexer.keyAllowed then return lexer
  let lexer ← lexer.giveUpHere
  let cursor := lexer.cursor
  return { lexer with candidates := lexer.candidates ++ [{
    depth := lexer.depth
    number := lexer.tokens.length
    required := !lexer.inFlow && lexer.indent == cursor.column
    index := cursor.index, line := cursor.line, column := cursor.column }] }

/-! Indentation. -/

/-- The indentations left when a column has been reached, and how many blocks have ended. -/
def unwound (column : Int) : Int → List Int → Nat × Int × List Int
  | indent, [] => (0, indent, [])
  | indent, before :: outer =>
    if column < indent then
      let (count, left) := unwound column before outer
      (count + 1, left)
    else (0, indent, before :: outer)

/-- Ends the blocks that are indented further than a column. Brackets hold blocks open. -/
def unwind (column : Int) (lexer : Lexer) : Lexer :=
  if lexer.inFlow then lexer
  else
    let (count, indent, outer) := unwound column lexer.indent lexer.outer
    { lexer with indent, outer, tokens := lexer.tokens ++ List.replicate count .blockEnd }

/-- Begins a block at a column further in; its token stands after a number of others. -/
def begin (column number : Nat) (token : Token) (lexer : Lexer) : Lexer :=
  if lexer.inFlow || column ≤ lexer.indent then lexer
  else { lexer with
    indent := column, outer := lexer.indent :: lexer.outer
    tokens := lexer.tokens.insertIdx number token }

/-! Tokens. -/

/-- A mark of some characters. -/
def mark (length : Nat) (token : Token) (lexer : Lexer) : Lexer :=
  (lexer.emit token).moveTo (lexer.cursor.skip length)

def finish (lexer : Lexer) : Reading Lexer := do
  let lexer ← (lexer.unwind (-1)).giveUpHere
  return { (lexer.allowKey false).emit .textEnd with candidates := [], isDone := true }

/-- What stands outside of documents. -/
def betweenDocuments (lexer : Lexer) : Reading Lexer := do
  return (← (lexer.unwind (-1)).giveUpHere).allowKey false

def readDirective (lexer : Lexer) : Reading Lexer := do
  let lexer ← lexer.betweenDocuments
  let (token, cursor) ← directive lexer.cursor
  return (lexer.emit token).moveTo cursor

def openBracket (token : Token) (lexer : Lexer) : Reading Lexer := do
  let lexer := (← lexer.noteCandidate).mark 1 token
  return { lexer with depth := lexer.depth + 1, keyAllowed := true }

def closeBracket (token : Token) (lexer : Lexer) : Reading Lexer := do
  let lexer := (← lexer.giveUpHere).mark 1 token
  return { lexer with depth := lexer.depth - 1, keyAllowed := false }

def readComma (lexer : Lexer) : Reading Lexer := do
  return ((← lexer.giveUpHere).allowKey true).mark 1 .flowEntry

/-- A mark that may begin a block, where a key may stand. -/
def readEntry (block token : Token) (allowed : Bool) (lexer : Lexer) : Reading Lexer := do
  if !lexer.inFlow && !lexer.keyAllowed then throw .mark
  let lexer ← (lexer.begin lexer.column lexer.tokens.length block).giveUpHere
  return (lexer.allowKey allowed).mark 1 token

/-- A colon, which makes a key of the place between the present brackets that may be one. -/
def readValue (lexer : Lexer) : Reading Lexer :=
  match lexer.candidates.find? (·.depth == lexer.depth) with
  | some candidate =>
    let number := candidate.number
    let lexer := { lexer with
      candidates := lexer.candidates.filter (·.depth != lexer.depth)
      tokens := lexer.tokens.insertIdx number .key }
    .ok (((lexer.begin candidate.column number .blockMapping).allowKey false).mark 1 .value)
  | none => lexer.readEntry .blockMapping .value (!lexer.inFlow)

/-- A token that may be the beginning of a key. -/
def readNode (read : Cursor → Reading (Token × Cursor)) (lexer : Lexer) : Reading Lexer := do
  let lexer ← lexer.noteCandidate
  let (token, cursor) ← read lexer.cursor
  return ((lexer.allowKey false).emit token).moveTo cursor

def readBlock (isFolded : Bool) (lexer : Lexer) : Reading Lexer := do
  let lexer ← lexer.giveUpHere
  let scanned ← blockScalar isFolded lexer.indent lexer.cursor
  let token := Token.scalar (String.ofList scanned.text) false
  return ((lexer.allowKey true).emit token).moveTo scanned.cursor

def readPlain (lexer : Lexer) : Reading Lexer := do
  let lexer ← lexer.noteCandidate
  let scanned := plainScalar lexer.inFlow (lexer.indent + 1) lexer.cursor
  let token := Token.scalar (String.ofList scanned.text) true
  return ((lexer.allowKey scanned.onNewLine).emit token).moveTo scanned.cursor

def anchorToken (make : String → Token) (cursor : Cursor) : Reading (Token × Cursor) := do
  let (name, cursor) ← anchorName cursor
  return (make name, cursor)

def quotedToken (quote : Char) (cursor : Cursor) : Reading (Token × Cursor) := do
  let scanned ← quotedScalar quote cursor
  return (.scalar (String.ofList scanned.text) false, scanned.cursor)

/-- The marks with which no plain scalar begins. -/
def marks : List Char :=
  [',', '[', ']', '\x7b', '\x7d', '#', '&', '*', '!', '|', '>', singleQuote, doubleQuote, '%', '@',
    Char.ofNat 96]

/-- Whether a plain scalar begins with a character before another one. -/
def startsPlain (inFlow : Bool) (c : Char) (next? : Option Char) : Bool :=
  if c == '-' || c == '?' || c == ':' then !Cursor.endsWord next? && (c == '-' || !inFlow)
  else !(isBreak c || isGap c || marks.contains c)

/-- The place after blanks, comments and ends of lines, and whether a line has ended. -/
def gapAfter : Nat → Bool → Cursor → Cursor × Bool
  | 0, ended, cursor => (cursor, ended)
  | fuel + 1, ended, cursor =>
    let cursor := skipSpaces cursor
    let cursor := if cursor.peek? == some '#' then cursor.spanLine.2 else cursor
    match cursor.takeBreak? with
    | some (_, cursor) => gapAfter fuel true cursor
    | none => (cursor, ended)

/-- Goes on to the next token. Outside of brackets a key may begin a line. -/
def passGap (lexer : Lexer) : Lexer :=
  let cursor := lexer.cursor
  let cursor := if cursor.index == 0 && cursor.peek?.any isMark then cursor.next else cursor
  let (cursor, ended) := gapAfter (cursor.rest.length + 1) false cursor
  { lexer with cursor, keyAllowed := lexer.keyAllowed || (ended && !lexer.inFlow) }

/-- Reads the token that begins with a character. -/
def readFrom (c : Char) (lexer : Lexer) : Reading Lexer :=
  let next? := (lexer.cursor.rest.drop 1).head?
  let atStart := lexer.column == 0
  let isEntry := Cursor.endsWord next?
  if c == '%' && atStart then lexer.readDirective
  else if atStart && lexer.cursor.atSeparator '-' then do
    return (← lexer.betweenDocuments).mark 3 .documentStart
  else if atStart && lexer.cursor.atSeparator '.' then do
    return (← lexer.betweenDocuments).mark 3 .documentEnd
  else if c == '[' then lexer.openBracket .listStart
  else if c == '\x7b' then lexer.openBracket .mappingStart
  else if c == ']' then lexer.closeBracket .listEnd
  else if c == '\x7d' then lexer.closeBracket .mappingEnd
  else if c == ',' then lexer.readComma
  else if c == '-' && isEntry then lexer.readEntry .blockList .blockEntry true
  else if c == '?' && (lexer.inFlow || isEntry) then lexer.readEntry .blockMapping .key (!lexer.inFlow)
  else if c == ':' && (lexer.inFlow || isEntry) then lexer.readValue
  else if c == '*' then lexer.readNode (anchorToken .alias)
  else if c == '&' then lexer.readNode (anchorToken .anchor)
  else if c == '!' then lexer.readNode tag
  else if c == '|' && !lexer.inFlow then lexer.readBlock false
  else if c == '>' && !lexer.inFlow then lexer.readBlock true
  else if c == singleQuote || c == doubleQuote then lexer.readNode (quotedToken c)
  else if startsPlain lexer.inFlow c next? then lexer.readPlain
  else .error .mark

/-- Reads one more token, and the ends of blocks before it. -/
def step (lexer : Lexer) : Reading Lexer := do
  let lexer ← lexer.passGap.giveUpStale
  let lexer := lexer.unwind lexer.column
  match lexer.cursor.peek? with
  | none => lexer.finish
  | some c => (← lexer.readFrom c).giveUpStale

/-- How many tokens are settled: none can come before them any more. -/
def settled (lexer : Lexer) : Nat :=
  lexer.candidates.foldl (fun least candidate => min least candidate.number) lexer.tokens.length

def run : Nat → Lexer → Tokens
  | 0, lexer => { tokens := lexer.tokens }
  | fuel + 1, lexer =>
    if lexer.isDone then { tokens := lexer.tokens }
    else
      match lexer.step with
      | .ok lexer => run fuel lexer
      | .error stop => ⟨lexer.tokens.take lexer.settled, stop⟩

end Lexer

def Tokens.ofText (text : String) : Tokens :=
  let chars := text.toList
  Lexer.run (chars.length + 2) { cursor := { rest := chars } }

end FormRules.Yaml

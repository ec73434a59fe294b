import FormRules.Yaml.Cursor

/-!
The scalars of a document: plain ones, quoted ones and blocks of text. Within a plain or quoted scalar
the end of a line counts as a space, and an empty line as a line feed.
-/

namespace FormRules.Yaml

/-- Reading that may fail. -/
abbrev Reading (α : Type) := Except Malformed α

/-! Plain scalars. -/

/-- The characters that end a plain scalar inside brackets. -/
def isFlowMark (c : Char) : Bool := [',', '?', '[', ']', '\x7b', '\x7d'].contains c

/-- Whether a colon before a character ends a plain scalar. -/
def colonEnds (inFlow : Bool) (next? : Option Char) : Bool :=
  Cursor.endsWord next? ||
    (inFlow && next?.any fun c => [',', '[', ']', '\x7b', '\x7d'].contains c)

/-- The characters of a plain scalar up to the next gap. -/
def plainRun (inFlow : Bool) : List Char → List Char
  | [] => []
  | c :: rest =>
    if isGap c || isBreak c || (c == ':' && colonEnds inFlow rest.head?) || (inFlow && isFlowMark c) then
      []
    else c :: plainRun inFlow rest

/-- Empty lines and the spaces before what follows them; nothing at the end of a document. -/
def emptyLines : Nat → List Char → Cursor → Option (List Char × Cursor)
  | 0, taken, cursor => some (taken, cursor)
  | fuel + 1, taken, cursor =>
    let cursor := cursor.dropWhile (· == ' ')
    match cursor.takeBreak? with
    | none => some (taken, cursor)
    | some (c, cursor) =>
      if cursor.atAnySeparator then none else emptyLines fuel (taken ++ [c]) cursor

/-- What the end of a line and the empty lines after it stand for. -/
def folded (ending : Char) (empty : List Char) : List Char :=
  if ending != '\n' then ending :: empty else if empty.isEmpty then [' '] else empty

/-- A gap in a plain scalar. -/
structure Gap where
  text : List Char
  cursor : Cursor
  hasBreak : Bool

/-- The gap before the next part of a plain scalar. It has no text where the scalar has to end. -/
def plainGap (cursor : Cursor) : Gap :=
  let (spaces, cursor) := cursor.span (· == ' ')
  match cursor.takeBreak? with
  | none => ⟨spaces, cursor, false⟩
  | some (ending, cursor) =>
    if cursor.atAnySeparator then ⟨[], cursor, true⟩
    else
      match emptyLines (cursor.rest.length + 1) [] cursor with
      | none => ⟨[], cursor, true⟩
      | some (empty, cursor) => ⟨folded ending empty, cursor, true⟩

/-- A scalar that has been read. A plain one may have gone on to a new line. -/
structure Scanned where
  text : List Char
  cursor : Cursor
  onNewLine : Bool := false

def plainFrom (inFlow : Bool) (indent : Int) : Nat → List Char → Gap → Scanned
  | 0, taken, gap => ⟨taken, gap.cursor, gap.hasBreak⟩
  | fuel + 1, taken, gap =>
    let run := plainRun inFlow gap.cursor.rest
    if gap.cursor.peek? == some '#' || run.isEmpty then ⟨taken, gap.cursor, gap.hasBreak⟩
    else
      let taken := taken ++ gap.text ++ run
      let gap := plainGap (gap.cursor.skip run.length)
      if gap.text.isEmpty || (!inFlow && gap.cursor.column < indent) then
        ⟨taken, gap.cursor, gap.hasBreak⟩
      else plainFrom inFlow indent fuel taken gap

/-- A plain scalar, whose further lines have to be indented. -/
def plainScalar (inFlow : Bool) (indent : Int) (cursor : Cursor) : Scanned :=
  plainFrom inFlow indent (cursor.rest.length + 1) [] ⟨[], cursor, false⟩

/-! Quoted scalars. -/

def escapes : List (Char × Nat) := [
  ('0', 0), ('a', 7), ('b', 8), ('t', 9), ('\t', 9), ('n', 10), ('v', 11), ('f', 12), ('r', 13),
  ('e', 27), (' ', 32), ('\x22', 34), ('\\', 92), ('/', 47), ('N', 0x85), ('_', 0xA0), ('L', 0x2028),
  ('P', 0x2029)]

def codeLengths : List (Char × Nat) := [('x', 2), ('u', 4), ('U', 8)]

def hexValue? (c : Char) : Option Nat :=
  if '0' ≤ c && c ≤ '9' then some (c.toNat - 48)
  else if 'A' ≤ c && c ≤ 'F' then some (c.toNat - 55)
  else if 'a' ≤ c && c ≤ 'f' then some (c.toNat - 87)
  else none

/-- The character of a code of some digits. Half of a surrogate pair is none, also before the other half. -/
def codeChar (digits : List Char) (count : Nat) : Reading Char :=
  match digits.mapM hexValue? with
  | some values =>
    let code := values.foldl (fun sum value => 16 * sum + value) 0
    if digits.length = count then
      if 0x110000 ≤ code then .error .code
      else if 0xD800 ≤ code && code < 0xE000 then .error .construction
      else .ok (Char.ofNat code)
    else .error .mark
  | none => .error .mark

/-- Empty lines inside a quoted scalar and the gap before what follows them. -/
def quotedBreaks : Nat → List Char → Cursor → Reading (List Char × Cursor)
  | 0, taken, cursor => .ok (taken, cursor)
  | fuel + 1, taken, cursor =>
    if cursor.atAnySeparator then .error .mark
    else
      let cursor := cursor.dropWhile isGap
      match cursor.takeBreak? with
      | none => .ok (taken, cursor)
      | some (c, cursor) => quotedBreaks fuel (taken ++ [c]) cursor

def allBreaks (cursor : Cursor) : Reading (List Char × Cursor) :=
  quotedBreaks (cursor.rest.length + 1) [] cursor

/-- A gap inside a quoted scalar. -/
def quotedGap (cursor : Cursor) : Reading (List Char × Cursor) := do
  let (gap, cursor) := cursor.span isGap
  match cursor.takeBreak? with
  | some (ending, cursor) =>
    let (empty, cursor) ← allBreaks cursor
    return (folded ending empty, cursor)
  | none => if cursor.rest.isEmpty then throw .mark else return (gap, cursor)

/-- What a backslash stands for together with what follows it. -/
def escaped (cursor : Cursor) : Reading (List Char × Cursor) := do
  match cursor.peek? with
  | none => throw .mark
  | some c =>
    match escapes.lookup c, codeLengths.lookup c with
    | some point, _ => return ([Char.ofNat point], cursor.next)
    | none, some count =>
      let cursor := cursor.next
      return ([← codeChar (cursor.rest.take count) count], cursor.skip count)
    | none, none => if isBreak c then allBreaks cursor.next else throw .mark

def singleQuote : Char := Char.ofNat 39

def doubleQuote : Char := Char.ofNat 34

/-- A quoted scalar after its opening quote. -/
def quotedFrom (quote : Char) : Nat → List Char → Cursor → Reading Scanned
  | 0, _, _ => .error .mark
  | fuel + 1, taken, cursor =>
    match cursor.rest with
    | [] => .error .mark
    | c :: rest =>
      if c == quote then
        if quote == singleQuote && rest.head? == some singleQuote then
          quotedFrom quote fuel (taken ++ [singleQuote]) (cursor.skip 2)
        else .ok { text := taken, cursor := cursor.next }
      else if quote == doubleQuote && c == '\\' then do
        let (text, cursor) ← escaped cursor.next
        quotedFrom quote fuel (taken ++ text) cursor
      else if isGap c || isBreak c then do
        let (text, cursor) ← quotedGap cursor
        quotedFrom quote fuel (taken ++ text) cursor
      else quotedFrom quote fuel (taken ++ [c]) cursor.next

def quotedScalar (quote : Char) (cursor : Cursor) : Reading Scanned :=
  quotedFrom quote (cursor.rest.length + 1) [] cursor.next

/-! Blocks of text. -/

/-- How the lines at the end of a block are kept: all of them, one, or none. -/
inductive Chomping where
  | keep
  | clip
  | strip
deriving DecidableEq, Repr

structure BlockHead where
  chomping : Chomping := .clip
  increment? : Option Nat := none

def chomping? (c : Char) : Option Chomping :=
  if c == '+' then some .keep else if c == '-' then some .strip else none

def increment? (c : Char) : Option Nat := if c.isDigit then some (c.toNat - 48) else none

/-- The head of a block, whose two parts may come in either order. -/
def blockHead (chars : List Char) : BlockHead × Nat :=
  match chars with
  | [] => ({}, 0)
  | first :: rest =>
    let second? := rest.head?
    match chomping? first, increment? first with
    | some chomping, _ =>
      match second?.bind increment? with
      | some increment => (⟨chomping, some increment⟩, 2)
      | none => (⟨chomping, none⟩, 1)
    | none, some increment =>
      match second?.bind chomping? with
      | some chomping => (⟨chomping, some increment⟩, 2)
      | none => (⟨.clip, some increment⟩, 1)
    | none, none => ({}, 0)

/-- The rest of the line of a head, which may be a comment. -/
def endOfHead (cursor : Cursor) : Reading Cursor :=
  let next? := cursor.peek?
  if !(Cursor.endsLine next? || next? == some ' ') then .error .mark
  else
    let cursor := cursor.dropWhile (· == ' ')
    let cursor := if cursor.peek? == some '#' then cursor.spanLine.2 else cursor
    if Cursor.endsLine cursor.peek? then .ok cursor.next else .error .mark

/-- Empty lines before a block whose indentation is not known, and the widest indentation. -/
def leadingLines : Nat → List Char → Nat → Cursor → List Char × Nat × Cursor
  | 0, taken, widest, cursor => (taken, widest, cursor)
  | fuel + 1, taken, widest, cursor =>
    let cursor := cursor.dropWhile (· == ' ')
    let widest := max widest cursor.column
    match cursor.takeBreak? with
    | some (c, cursor) => leadingLines fuel (taken ++ [c]) widest cursor
    | none => (taken, widest, cursor)

/-- Empty lines in a block, and the indentation of the line after them. -/
def blockBreaks (indent : Nat) : Nat → List Char → Cursor → List Char × Cursor
  | 0, taken, cursor => (taken, cursor)
  | fuel + 1, taken, cursor =>
    let cursor := cursor.indentTo indent
    match cursor.takeBreak? with
    | some (c, cursor) => blockBreaks indent fuel (taken ++ [c]) cursor
    | none => (taken, cursor)

/-- Whether a line of a block goes on with text of its own. -/
def startsText (cursor : Cursor) : Bool := cursor.peek?.any (!isGap ·)

/-- The lines of a block, with the end of the last one and the empty lines after it. -/
structure BlockText where
  text : List Char
  ending : List Char
  empty : List Char
  cursor : Cursor

def blockLines (isFolded : Bool) (indent : Nat) : Nat → BlockText → BlockText
  | 0, block => block
  | fuel + 1, block =>
    if block.cursor.column != indent || block.cursor.rest.isEmpty then block
    else
      let isText := startsText block.cursor
      let (line, cursor) := block.cursor.spanLine
      let (ending, cursor) := match cursor.takeBreak? with
        | some (c, cursor) => ([c], cursor)
        | none => ([], cursor)
      let (empty, cursor) := blockBreaks indent (cursor.rest.length + 1) [] cursor
      let text := block.text ++ block.empty ++ line
      if cursor.column == indent && !cursor.rest.isEmpty then
        let joint :=
          if isFolded && ending == ['\n'] && isText && startsText cursor then
            if empty.isEmpty then [' '] else []
          else ending
        blockLines isFolded indent fuel ⟨text ++ joint, [], empty, cursor⟩
      else ⟨text, ending, empty, cursor⟩

/-- The text of a block with the lines at its end that are kept. -/
def BlockText.chomped (block : BlockText) : Chomping → List Char
  | .keep => block.text ++ block.ending ++ block.empty
  | .clip => block.text ++ block.ending
  | .strip => block.text

/-- A block of text after its mark, inside a block of a given indentation. -/
def blockScalar (isFolded : Bool) (indent : Int) (cursor : Cursor) : Reading Scanned := do
  let cursor := cursor.next
  let (head, length) := blockHead cursor.rest
  if head.increment? == some 0 then throw .mark
  let cursor ← endOfHead (cursor.skip length)
  let least := max 1 (indent + 1).toNat
  let fuel := cursor.rest.length + 1
  let (empty, column, cursor) := match head.increment? with
    | some increment =>
      let column := least + increment - 1
      let (empty, cursor) := blockBreaks column fuel [] cursor
      (empty, column, cursor)
    | none =>
      let (empty, widest, cursor) := leadingLines fuel [] 0 cursor
      (empty, max least widest, cursor)
  let block := blockLines isFolded column (cursor.rest.length + 1) ⟨[], [], empty, cursor⟩
  return { text := block.chomped head.chomping, cursor := block.cursor }

end FormRules.Yaml

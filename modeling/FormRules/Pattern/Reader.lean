import FormRules.Number.Reader
import FormRules.Pattern.Basic
import FormRules.Pattern.Malformed

/-!
Reading a pattern from its text.
-/

namespace FormRules.Pattern

open Text

/-- A character, or an escaped character, and where it stands. -/
structure Token where
  char : Char
  escaped : Bool
  position : Nat

namespace Token

def text (token : Token) : String :=
  String.ofList (if token.escaped then [backslash, token.char] else [token.char])

/-- Whether a token is a given plain character. -/
def isPlain (token : Token) (c : Char) : Bool := !token.escaped && token.char == c

/-- The tokens of a text; a backslash at the end is left out. -/
def ofChars (position : Nat) : List Char → List Token
  | [] => []
  | c :: rest =>
    if c == backslash then
      match rest with
      | [] => []
      | escaped :: rest => ⟨escaped, true, position⟩ :: ofChars (position + 2) rest
    else ⟨c, false, position⟩ :: ofChars (position + 1) rest

end Token

/-- Whether a text ends in a backslash that escapes nothing. -/
def dangles (chars : List Char) : Bool := (chars.reverse.takeWhile (· == backslash)).length % 2 == 1

structure Flags where
  folded : Bool := false
  lines : Bool := false
  all : Bool := false
  verbose : Bool := false
  narrow : Bool := false

/-- How far a pattern has been read, and the groups met. -/
structure Cursor where
  tokens : List Token
  length : Nat
  dangling : Bool
  flags : Flags := {}
  names : List (String × Nat) := []
  opened : Nat := 0
  closed : List (Nat × Width) := []
  lookbehindFrom? : Option Nat := none
  forward : List (Nat × Nat) := []
  unbounded : Bool := false

abbrev Reading := StateT Cursor (Except (Cause × Option Nat))

namespace Reading

def peek? : Reading (Option Token) := return (← get).tokens.head?

/-- The position of the next token. -/
def position : Reading Nat := do
  let cursor ← get
  return (cursor.tokens.head?.map (·.position)).getD cursor.length

def failAt (cause : Cause) (position : Nat) : Reading α := throw (cause, some position)

/-- Fails some characters before the next token. -/
def fail (cause : Cause) (back : Nat) : Reading α := do failAt cause ((← position) - back)

/-- A backslash that escapes nothing is met as soon as nothing else is left before it. -/
def checkDangling : Reading Unit := do
  let cursor ← get
  if cursor.tokens.isEmpty && cursor.dangling then failAt .danglingEscape (cursor.length - 1)

def next? : Reading (Option Token) := do
  match (← get).tokens with
  | [] => return none
  | token :: rest =>
    modify ({ · with tokens := rest })
    checkDangling
    return some token

def nextIs (c : Char) : Reading Bool := return (← peek?).any (·.isPlain c)

/-- Takes the next token if it is a given plain character. -/
def take (c : Char) : Reading Bool := do
  if ← nextIs c then
    let _ ← next?
    return true
  else return false

/-- Up to `count` plain characters of a class. -/
def takeWhile (holds : Char → Bool) : Nat → Reading (List Char)
  | 0 => return []
  | count + 1 => do
    match ← peek? with
    | some token =>
      if !token.escaped && holds token.char then
        let _ ← next?
        return token.char :: (← takeWhile holds count)
      else return []
    | none => return []

/-- The text up to a terminator, which is taken too. -/
def takeUntil (terminator : Char) (what : String) (taken : String) : Nat → Reading String
  | 0 => fail (.missing what) 0
  | fuel + 1 => do
    match ← next? with
    | none =>
      if taken.isEmpty then fail (.missing what) 0
      else fail (.unterminatedName (String.singleton terminator)) taken.length
    | some token =>
      if token.isPlain terminator then
        if taken.isEmpty then fail (.missing what) 1 else return taken
      else takeUntil terminator what (taken ++ token.text) fuel

def untilChar (terminator : Char) (what : String) : Reading String := do
  takeUntil terminator what "" ((← get).tokens.length + 1)

end Reading

open Reading

def isOctal (c : Char) : Bool := '0' ≤ c && c ≤ '7'

def hexValue? (c : Char) : Option Nat :=
  if c.isDigit then some (c.toNat - 48)
  else if 'a' ≤ c && c ≤ 'f' then some (c.toNat - 87)
  else if 'A' ≤ c && c ≤ 'F' then some (c.toNat - 55)
  else none

def ofBase (base : Nat) (digits : List Char) : Nat :=
  digits.foldl (fun value c => base * value + (hexValue? c).getD 0) 0

/-- The character of an escape by number: its mark is `x`, `u` or `U`. -/
def readHex (mark : Char) (count : Nat) : Reading Nat := do
  let digits ← takeWhile (fun c => (hexValue? c).isSome) count
  let escape := String.ofList (backslash :: mark :: digits)
  if digits.length < count then fail (.incompleteEscape escape) escape.length
  let value := ofBase 16 digits
  if 0x110000 ≤ value then fail (.badEscape escape) escape.length
  return value

/-- Escapes that stand for one character everywhere. -/
def controlEscape? (c : Char) : Option Nat :=
  [('a', 7), ('f', 12), ('n', 10), ('r', 13), ('t', 9), ('v', 11), (backslash, 92)].lookup c

def kindEscape? (narrow : Bool) (c : Char) : Option ClassItem :=
  match c with
  | 'd' => some (.kind false narrow .digit)
  | 'D' => some (.kind true narrow .digit)
  | 's' => some (.kind false narrow .blank)
  | 'S' => some (.kind true narrow .blank)
  | 'w' => some (.kind false narrow .word)
  | 'W' => some (.kind true narrow .word)
  | _ => none

/-- An octal escape that has been read whole. -/
def octal (digits : List Char) : Reading Nat := do
  let value := ofBase 8 digits
  let escape := String.ofList (backslash :: digits)
  if 0o377 < value then fail (.octalTooLarge escape) escape.length
  return value

/-- An escape by number or of a character for itself. -/
def plainEscape (c : Char) : Reading Nat := do
  match c with
  | 'x' => readHex c 2
  | 'u' => readHex c 4
  | 'U' => readHex c 8
  | _ =>
    if c.isAlpha || c.isDigit then fail (.badEscape (String.ofList [backslash, c])) 2
    else return c.toNat

/-- An escape inside a class. -/
def classEscape (narrow : Bool) (c : Char) : Reading ClassItem := do
  match kindEscape? narrow c with
  | some item => return item
  | none =>
    let point ←
      match controlEscape? c with
      | some point => pure point
      | none =>
        if c == 'b' then pure 8
        else if isOctal c then octal (c :: (← takeWhile isOctal 2))
        else plainEscape c
    return .range point point

/-- A reference to a group that is closed. -/
def checkGroup (index back : Nat) : Reading Unit := do
  let cursor ← get
  if (cursor.closed.lookup index).isNone then fail .openGroup back

def checkLookbehind (index : Nat) : Reading Unit := do
  match (← get).lookbehindFrom? with
  | none => return
  | some first =>
    checkGroup index 0
    if first ≤ index then fail .sameLookbehind 0

/-- A reference to a group by number, or an octal escape of three digits. -/
def numberedEscape (flags : Flags) (c : Char) : Reading Pattern := do
  let single (point : Nat) : Pattern := .one (.single flags.folded point)
  let second ← takeWhile Char.isDigit 1
  let third ← if isOctal c && second.any isOctal then takeWhile isOctal 1 else pure []
  let digits := c :: second ++ third
  if third.isEmpty then
    let index := ofBase 10 digits
    if index ≤ (← get).opened then
      checkGroup index (digits.length + 1)
      checkLookbehind index
      return .again flags.folded index
    else fail (.unknownGroup index) digits.length
  else return single (← octal digits)

def patternEscape (flags : Flags) (c : Char) : Reading Pattern := do
  match c with
  | 'A' => return .anchor .textStart
  | 'Z' => return .anchor .textEnd
  | 'b' => return .anchor (.wordEdge false flags.narrow)
  | 'B' => return .anchor (.wordEdge true flags.narrow)
  | _ =>
    match kindEscape? flags.narrow c with
    | some item => return .one ⟨[item], false, flags.folded⟩
    | none =>
      let single (point : Nat) : Pattern := .one (.single flags.folded point)
      match controlEscape? c with
      | some point => return single point
      | none =>
        if c == '0' then return single (ofBase 8 (c :: (← takeWhile isOctal 2)))
        else if c.isDigit then numberedEscape flags c
        else return single (← plainEscape c)

/-- One member of a class, or the first one of a range. -/
def classMember (narrow : Bool) (token : Token) : Reading ClassItem :=
  if token.escaped then classEscape narrow token.char
  else return .range token.char.toNat token.char.toNat

def hyphenItem : ClassItem := .range 0x2D 0x2D

/-- The items of a class up to its end; `here` is where the class begins. -/
def classItems (narrow : Bool) (here : Nat) (items : List ClassItem) : Nat → Reading (List ClassItem)
  | 0 => failAt .unterminatedClass here
  | fuel + 1 => do
    let some token ← next? | failAt .unterminatedClass here
    if token.isPlain ']' && !items.isEmpty then return items
    let first ← classMember narrow token
    if !(← take '-') then classItems narrow here (items ++ [first]) fuel
    else
      let some last ← next? | failAt .unterminatedClass here
      if last.isPlain ']' then return items ++ [first, hyphenItem]
      let second ← classMember narrow last
      match first, second with
      | .range low _, .range high _ =>
        if high < low then
          fail (.badRange token.text last.text) (token.text.length + 1 + last.text.length)
        else classItems narrow here (items ++ [.range low high]) fuel
      | _, _ => fail (.badRange token.text last.text) (token.text.length + 1 + last.text.length)

/-- What a part allows to follow it. -/
inductive Role where
  | anchor
  | repeated
  | other
deriving DecidableEq

/-- A part of a pattern. -/
structure Piece where
  node : Pattern
  role : Role := .other

def Piece.ofNode (node : Pattern) : Piece :=
  match node with
  | .anchor _ => ⟨node, .anchor⟩
  | _ => ⟨node, .other⟩

/-- The bounds of a repetition, or nothing for a brace that stands for itself. -/
def repeatBounds (mark : Char) (here : Nat) : Reading (Option (Nat × Option Nat)) := do
  match mark with
  | '?' => return some (0, some 1)
  | '*' => return some (0, none)
  | '+' => return some (1, none)
  | _ =>
    if ← nextIs '\x7d' then return none
    let start ← get
    let low ← takeWhile Char.isDigit start.tokens.length
    let comma ← take ','
    let high ← if comma then takeWhile Char.isDigit start.tokens.length else pure low
    if !(← take '\x7d') then
      set start
      return none
    let least := ofBase 10 low
    let most? := if high.isEmpty then none else some (ofBase 10 high)
    if most?.any (· < least) then failAt .reversedRepeat here
    return some (least, most?)

/-- Repeats the last piece, the repetition having begun before position `here`. -/
def repeatLast (pieces : List Piece) (here : Nat) (least : Nat) (most? : Option Nat) :
    Reading (List Piece) := do
  match pieces.reverse with
  | [] => failAt .nothingToRepeat (here - 1)
  | last :: earlier =>
    if last.role == .anchor then failAt .nothingToRepeat (here - 1)
    if last.role == .repeated then failAt .multipleRepeat (here - 1)
    let lazy ← take '?'
    let possessive ← if lazy then pure false else take '+'
    let appetite := if lazy then .lazy else if possessive then .possessive else .greedy
    return (⟨.repeated appetite least most? last.node, .repeated⟩ :: earlier).reverse

def isFlag (c : Char) : Bool := ['i', 'L', 'm', 's', 'x', 'a', 'u'].contains c

def isTypeFlag (c : Char) : Bool := c == 'a' || c == 'u'

def Flags.turn (value : Bool) (flags : Flags) (c : Char) : Flags :=
  match c with
  | 'i' => { flags with folded := value }
  | 'm' => { flags with lines := value }
  | 's' => { flags with all := value }
  | 'x' => { flags with verbose := value }
  | 'a' => { flags with narrow := value }
  | 'u' => { flags with narrow := !value }
  | _ => flags

/-- Flags to turn on, the first one being read already, and the character that ends them. -/
def flagsOn (c : Char) (on : List Char) : Nat → Reading (List Char × Char)
  | 0 => fail (.missing "-, : or )") 0
  | fuel + 1 => do
    if c == 'L' then fail .localeFlag 0
    if isTypeFlag c && on.any fun other => isTypeFlag other && other != c then fail .mixedFlags 0
    let some token ← next? | fail (.missing "-, : or )") 0
    let on := on ++ [c]
    if token.isPlain ')' || token.isPlain '-' || token.isPlain ':' then return (on, token.char)
    if !token.escaped && isFlag token.char then flagsOn token.char on fuel
    else if !token.escaped && isWord token.char && !isDigit token.char && token.char != '_' then
      fail .unknownFlag token.text.length
    else fail (.missing "-, : or )") token.text.length

/-- Flags to turn off, the first one being read already. -/
def flagsOff (c : Char) (off : List Char) : Nat → Reading (List Char)
  | 0 => fail (.missing ":") 0
  | fuel + 1 => do
    if isTypeFlag c || c == 'L' then fail .typeFlagOff 0
    let some token ← next? | fail (.missing ":") 0
    let off := off ++ [c]
    if token.isPlain ':' then return off
    if !token.escaped && isFlag token.char then flagsOff token.char off fuel
    else if !token.escaped && isWord token.char && !isDigit token.char && token.char != '_' then
      fail .unknownFlag token.text.length
    else fail (.missing ":") token.text.length

/-- The flags of a group: those to turn on and off, or nothing if they are meant for all. -/
def readFlags (c : Char) : Reading (Option (List Char × List Char)) := do
  let fuel := (← get).tokens.length + 1
  let (on, stop) ← if c == '-' then pure ([], '-') else flagsOn c [] fuel
  if stop == ')' then
    modify fun cursor => { cursor with flags := on.foldl (Flags.turn true) cursor.flags }
    return none
  if stop == ':' then return some (on, [])
  let some token ← next? | fail (.missing "flag") 0
  if token.escaped || !isFlag token.char then
    if !token.escaped && isWord token.char && !isDigit token.char && token.char != '_' then
      fail .unknownFlag token.text.length
    else fail (.missing "flag") token.text.length
  let off ← flagsOff token.char [] fuel
  if on.any off.contains then fail .flagOnAndOff 1
  return some (on, off)

/-- Whether a text can be the name of a group. -/
def isName (name : String) : Bool :=
  match name.toList with
  | [] => false
  | c :: rest => isWord c && !isDigit c && rest.all isWord

def checkName (name : String) : Reading Unit := do
  if !isName name then fail (.badGroupName name) (name.length + 1)

/-- Opens a group, which gets the next number. -/
def openGroup (name? : Option String) : Reading Nat := do
  let cursor ← get
  let index := cursor.opened + 1
  set { cursor with opened := index }
  match name? with
  | none => return index
  | some name =>
    match cursor.names.lookup name with
    | some old => fail (.redefinedName name index old) (name.length + 1)
    | none =>
      modify fun cursor => { cursor with names := (name, index) :: cursor.names }
      return index

/-- The number of a group that a condition names. -/
def conditionGroup : Reading Nat := do
  let name ← untilChar ')' "group name"
  let index ←
    if isName name then
      match (← get).names.lookup name with
      | some index => pure index
      | none => fail (.unknownGroupName name) (name.length + 1)
    else
      match Number.int? name with
      | some (.ofNat index, _) =>
        if index = 0 then fail .groupZero (name.length + 1)
        let start := (← position) - name.length - 1
        modify fun cursor => { cursor with forward := cursor.forward ++ [(index, start)] }
        pure index
      | _ => fail (.badGroupName name) (name.length + 1)
  checkLookbehind index
  return index

/-- A reference to a group by name. -/
def namedAgain (flags : Flags) : Reading Pattern := do
  let name ← untilChar ')' "group name"
  checkName name
  match (← get).names.lookup name with
  | none => fail (.unknownGroupName name) (name.length + 1)
  | some index =>
    checkGroup index (name.length + 1)
    checkLookbehind index
    return .again flags.folded index

/-- What the characters after an opening bracket announce. -/
inductive GroupHead where
  | capture (name? : Option String)
  | plain (on off : List Char)
  | once
  | ahead (negated : Bool)
  | behind (negated : Bool)
  | condition
  | whole (node : Pattern)
  | nothing

/-- Passes over a comment. -/
def skipComment (start : Nat) : Nat → Reading Unit
  | 0 => failAt .unterminatedComment start
  | fuel + 1 => do
    let some token ← next? | failAt .unterminatedComment start
    if token.isPlain ')' then return else skipComment start fuel

/-- Passes over the rest of a line. -/
def skipLine : Nat → Reading Unit
  | 0 => return
  | fuel + 1 => do
    let some token ← next? | return
    if token.isPlain '\n' then return else skipLine fuel

def unexpected : Reading α := fail .unexpectedEnd 0

/-- Reads what an opening bracket at `start` announces; `leading` says that nothing stands before. -/
def groupHead (flags : Flags) (start : Nat) (leading : Bool) : Reading GroupHead := do
  if !(← take '?') then return .capture none
  let some token ← next? | unexpected
  let unknown (mark : String) (last : Token) : Reading GroupHead :=
    fail (.unknownExtension (mark ++ last.text)) (last.text.length + mark.length)
  if token.escaped then unknown "?" token
  else
    match token.char with
    | 'P' =>
      if ← take '<' then
        let name ← untilChar '>' "group name"
        checkName name
        return .capture (some name)
      else if ← take '=' then return .whole (← namedAgain flags)
      else
        let some last ← next? | unexpected
        unknown "?P" last
    | ':' => return .plain [] []
    | '#' =>
      skipComment start ((← get).tokens.length + 1)
      return .nothing
    | '=' => return .ahead false
    | '!' => return .ahead true
    | '<' =>
      let some last ← next? | unexpected
      if last.isPlain '=' then return .behind false
      else if last.isPlain '!' then return .behind true
      else unknown "?<" last
    | '(' => return .condition
    | '>' => return .once
    | c =>
      if isFlag c || c == '-' then
        match ← readFlags c with
        | some (on, off) => return .plain on off
        | none => if leading then return .nothing else failAt .lateFlags start
      else unknown "?" token

def closeGroup (start : Nat) : Reading Unit := do
  if !(← take ')') then failAt .unterminatedGroup start

/-- A part that looks back, which needs a fixed width; a whole pattern that lacks it is refused. -/
def lookBack (negated : Bool) (body : Pattern) : Reading Pattern := do
  let width := body.width (← get).closed
  if width.most? ≠ some width.least then modify ({ · with unbounded := true })
  return .behind negated width.least body

def isLayout (c : Char) : Bool := [' ', '\t', '\n', '\r', '\x0b', '\x0c'].contains c

mutual

/-- Parts to choose from, up to a closing bracket or the end. -/
def readChoice (adjust : Flags → Flags) (outermost : Bool) (done : List Pattern) :
    Nat → Reading Pattern
  | 0 => unexpected
  | fuel + 1 => do
    let pieces ← readPieces adjust (outermost && done.isEmpty) [] fuel
    let done := done ++ [chain (pieces.map (·.node))]
    if ← take '|' then readChoice adjust outermost done fuel else return choice done

/-- Parts one after the other, up to a bar, a closing bracket or the end. -/
def readPieces (adjust : Flags → Flags) (leading : Bool) (pieces : List Piece) :
    Nat → Reading (List Piece)
  | 0 => unexpected
  | fuel + 1 => do
    let some token ← peek? | return pieces
    if token.isPlain '|' || token.isPlain ')' then return pieces
    let _ ← next?
    let flags := adjust (← get).flags
    let continueWith (piece : Piece) := readPieces adjust leading (pieces ++ [piece]) fuel
    if flags.verbose && !token.escaped && isLayout token.char then
      readPieces adjust leading pieces fuel
    else if flags.verbose && token.isPlain '#' then
      skipLine ((← get).tokens.length + 1)
      readPieces adjust leading pieces fuel
    else if token.escaped then continueWith (.ofNode (← patternEscape flags token.char))
    else
      match token.char with
      | '.' =>
        let items := if flags.all then [] else [ClassItem.range 10 10]
        continueWith (.ofNode (.one ⟨items, true, false⟩))
      | '^' => continueWith (.ofNode (.anchor (if flags.lines then .lineStart else .textStart)))
      | '$' => continueWith (.ofNode (.anchor (if flags.lines then .lineEnd else .lastLineEnd)))
      | '[' =>
        let negated ← take '^'
        let items ← classItems flags.narrow token.position [] ((← get).tokens.length + 1)
        continueWith (.ofNode (.one ⟨items, negated, flags.folded⟩))
      | '(' =>
        let piece? ← readGroup adjust flags token.position (leading && pieces.isEmpty) fuel
        readPieces adjust leading (pieces ++ piece?.toList) fuel
      | c =>
        if c == '*' || c == '+' || c == '?' || c == '\x7b' then
          let here ← position
          match ← repeatBounds c here with
          | some (least, most?) =>
            readPieces adjust leading (← repeatLast pieces here least most?) fuel
          | none => continueWith (.ofNode (.one (.single flags.folded c.toNat)))
        else continueWith (.ofNode (.one (.single flags.folded c.toNat)))

/-- A group whose opening bracket stands at `start`. -/
def readGroup (adjust : Flags → Flags) (flags : Flags) (start : Nat) (leading : Bool) :
    Nat → Reading (Option Piece)
  | 0 => unexpected
  | fuel + 1 => do
    match ← groupHead flags start leading with
    | .nothing => return none
    | .whole node => return some ⟨node, .other⟩
    | .capture name? =>
      let index ← openGroup name?
      let body ← readChoice adjust false [] fuel
      closeGroup start
      modify fun cursor =>
        { cursor with closed := (index, body.width cursor.closed) :: cursor.closed }
      return some ⟨.group index body, .other⟩
    | .plain on off =>
      let inner (flags : Flags) := off.foldl (Flags.turn false) (on.foldl (Flags.turn true) flags)
      let body ← readChoice (fun flags => inner (adjust flags)) false [] fuel
      closeGroup start
      return some ⟨body, .other⟩
    | .once =>
      let body ← readChoice adjust false [] fuel
      closeGroup start
      return some ⟨.once body, .other⟩
    | .ahead negated =>
      let body ← readChoice adjust false [] fuel
      closeGroup start
      return some ⟨.ahead negated body, .other⟩
    | .behind negated =>
      let outer := (← get).lookbehindFrom?
      modify fun cursor =>
        { cursor with lookbehindFrom? := some (outer.getD (cursor.opened + 1)) }
      let body ← readChoice adjust false [] fuel
      modify ({ · with lookbehindFrom? := outer })
      closeGroup start
      return some ⟨← lookBack negated body, .other⟩
    | .condition =>
      let index ← conditionGroup
      let present ← readPieces adjust false [] fuel
      let absent ← if ← take '|' then readPieces adjust false [] fuel else pure []
      if ← nextIs '|' then fail .tooManyBranches 0
      closeGroup start
      return some ⟨.given index (chain (present.map (·.node))) (chain (absent.map (·.node))), .other⟩

end

/-- A whole pattern; every group that a condition names must exist. -/
def readWhole : Reading Pattern := do
  checkDangling
  let pattern ← readChoice id true [] (2 * (← get).tokens.length + 4)
  if (← peek?).isSome then fail .unbalanced 0
  let cursor ← get
  match cursor.forward.find? fun (index, _) => cursor.opened < index with
  | some (index, start) => failAt (.unknownGroup index) start
  | none => if cursor.unbounded then throw (.unboundedLookbehind, none) else return pattern

def ofText (text : String) : Except Malformed Pattern :=
  let chars := text.toList
  let start : Cursor :=
    { tokens := Token.ofChars 0 chars, length := chars.length, dangling := dangles chars }
  match readWhole.run start with
  | .ok (pattern, _) => .ok pattern
  | .error (cause, position?) => .error ⟨text, cause, position?⟩

end FormRules.Pattern

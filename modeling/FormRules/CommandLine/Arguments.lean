import FormRules.Text.Digit

/-!
The arguments of a command: words, and flags, of which some take a value. A long name may be cut
short as long as it is clear, and short flags may be written together. After two hyphens there are
only words.
-/

namespace FormRules.CommandLine

/-- A flag with its names. -/
structure Flag where
  names : List String
  takesValue : Bool := false
deriving DecidableEq

/-- Why no command is carried out: help was asked for, or the arguments make no command. -/
inductive Refusal where
  | help
  | usage
deriving DecidableEq, Repr

def Flag.help : Flag := { names := ["-h", "--help"] }

/-- What is written into the same argument as a flag, maybe after an equals sign. -/
structure Inline where
  afterEquals : Bool
  text : List Char

/-- What an argument is. -/
inductive Argument where
  | word (text : String)
  | hyphens
  | flag (flag : Flag) (isShort : Bool) (inline? : Option Inline)
  | unknown

namespace Argument

def startsWith (start name : List Char) : Bool := start.isPrefixOf name

/-- Whether a text is a number below zero, which is no flag. -/
def isNegative (chars : List Char) : Bool :=
  let body := chars.drop 1
  let whole := body.takeWhile Text.isDecimal
  match body.drop whole.length with
  | [] => !whole.isEmpty
  | '.' :: fraction => !fraction.isEmpty && fraction.all Text.isDecimal
  | _ => false

def named? (flags : List Flag) (name : List Char) : Option Flag :=
  flags.find? fun flag => flag.names.contains (String.ofList name)

/-- The flags that a long name may be short for. -/
def completions (flags : List Flag) (start : List Char) : List Flag :=
  flags.flatMap fun flag =>
    (flag.names.filter fun name => start.isPrefixOf name.toList).map fun _ => flag

def isShortName (name : List Char) : Bool := name[1]? != some '-'

/-- A text before its first equals sign, and what follows the sign. -/
def splitEquals (chars : List Char) : List Char × Option Inline :=
  let name := chars.takeWhile (· != '=')
  (name, (chars.drop name.length).tail?.map (⟨true, ·⟩))

/-- What a text that begins with a hyphen and is no name of a flag stands for. -/
def ofHyphened (flags : List Flag) (text : String) : Except Refusal Argument :=
  let chars := text.toList
  let (name, inline?) := splitEquals chars
  let other : Argument :=
    if isNegative chars || chars.contains ' ' then .word text else .unknown
  match named? flags name with
  | some found => .ok (.flag found (isShortName name) inline?)
  | none =>
    if isShortName chars then
      match named? flags (chars.take 2) with
      | some found => .ok (.flag found true (some ⟨false, chars.drop 2⟩))
      | none => .ok other
    else
      match completions flags name with
      | [] => .ok other
      | [found] => .ok (.flag found false inline?)
      | _ => .error .usage

def ofText (flags : List Flag) (text : String) : Except Refusal Argument :=
  if text.toList.head? != some '-' || text == "-" then .ok (.word text) else ofHyphened flags text

/-- Each argument as what it is. -/
def sort (flags : List Flag) : List String → Except Refusal (List Argument)
  | [] => .ok []
  | text :: texts =>
    if text == "--" then .ok (.hyphens :: texts.map .word)
    else do return (← ofText flags text) :: (← sort flags texts)

end Argument

/-- What arguments have given. -/
structure Given where
  words : List String := []
  flags : List (Flag × Option String) := []
  /-- Whether there were arguments that have no use. -/
  hasExtra : Bool := false

namespace Given

def has (given : Given) (flag : Flag) : Bool := given.flags.any (·.1 == flag)

/-- The last value of a flag. -/
def value? (given : Given) (flag : Flag) : Option String :=
  (given.flags.reverse.lookup flag).bind id

def addFlag (given : Given) (flag : Flag) (value? : Option String) : Except Refusal Given :=
  if flag == .help then .error .help
  else .ok { given with flags := given.flags ++ [(flag, value?)] }

/-- Short flags that are written together, in their order, and whether the last one is unknown. -/
def together (flags : List Flag) (flag : Flag) (isShort afterEquals : Bool) :
    List Char → Except Refusal (List (Flag × Option String) × Bool)
  | [] => if flag.takesValue then .ok ([(flag, some "")], false) else .error .usage
  | c :: rest =>
    if flag.takesValue then .ok ([(flag, some (String.ofList (c :: rest)))], false)
    else if !isShort || afterEquals || c == '-' then .error .usage
    else
      match Argument.named? flags ['-', c], rest with
      | none, _ => .ok ([(flag, none)], true)
      | some next, [] => .ok ([(flag, none), (next, none)], false)
      | some next, '=' :: rest => do
        let (more, hasExtra) ← together flags next true true rest
        return ((flag, none) :: more, hasExtra)
      | some next, other :: rest => do
        let (more, hasExtra) ← together flags next true false (other :: rest)
        return ((flag, none) :: more, hasExtra)

/-- Adds a flag that has something written into the same argument. -/
def addInline (flags : List Flag) (flag : Flag) (isShort : Bool) (inline : Inline) (given : Given) :
    Except Refusal Given := do
  let (found, hasExtra) ← together flags flag isShort inline.afterEquals inline.text
  let given ← found.foldlM (fun given (flag, value?) => given.addFlag flag value?) given
  return { given with hasExtra := given.hasExtra || hasExtra }

/-- Takes arguments of which at most `limit` are words of use. Two hyphens belong to the word
beside them. -/
def take (flags : List Flag) (limit : Nat) (afterWord : Bool) (given : Given) :
    List Argument → Except Refusal Given
  | [] => .ok given
  | .word text :: rest =>
    if given.words.length < limit then
      take flags limit true { given with words := given.words ++ [text] } rest
    else take flags limit false { given with hasExtra := true } rest
  | .hyphens :: rest =>
    let isExtra := limit ≤ given.words.length && !afterWord
    take flags limit false { given with hasExtra := given.hasExtra || isExtra } rest
  | .unknown :: rest => take flags limit false { given with hasExtra := true } rest
  | .flag flag isShort (some inline) :: rest => do
    take flags limit false (← given.addInline flags flag isShort inline) rest
  | .flag flag _ none :: rest =>
    if flag.takesValue then
      match rest with
      | .word text :: rest => do take flags limit false (← given.addFlag flag (some text)) rest
      | _ => .error .usage
    else do take flags limit false (← given.addFlag flag none) rest

/-- What arguments give of which all have to be of use. -/
def ofTexts (flags : List Flag) (count : Nat) (texts : List String) : Except Refusal Given := do
  let given ← take flags count false {} (← Argument.sort flags texts)
  if given.words.length = count then return given else throw .usage

end Given

end FormRules.CommandLine

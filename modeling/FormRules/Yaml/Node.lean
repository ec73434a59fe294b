import FormRules.Yaml.Plain
import FormRules.Yaml.Tokens

/-!
The nodes of a document. An alias stands for the node that was given its name before.
-/

namespace FormRules.Yaml

inductive Node where
  | scalar (tag : Tag) (text : String)
  | list (tag : Tag) (items : List Node)
  | mapping (tag : Tag) (entries : List (Node × Node))

def Node.tag : Node → Tag
  | .scalar tag _ | .list tag _ | .mapping tag _ => tag

/-- The nodes that have names; a node whose content is still being read is open. -/
abbrev Names := List (String × Option Node)

namespace Names

def assign (names : Names) (name : String) (node? : Option Node) : Names := (name, node?) :: names

end Names

/-- Tokens that are still to be read, with the names and the handles that are known. -/
structure Reader where
  tokens : Tokens
  names : Names := []
  handles : List (String × String) := []

/-- Reading nodes. -/
abbrev Composing (α : Type) := StateT Reader Reading α

namespace Composing

/-- The next token, if the text could be read so far. -/
def peek : Composing Token := do
  let reader ← get
  match reader.tokens.tokens with
  | token :: _ => return token
  | [] => throw reader.tokens.stop

def pass : Composing Unit :=
  modify fun reader => { reader with tokens := { reader.tokens with tokens := reader.tokens.tokens.drop 1 } }

/-- Whether the next token is one of some. -/
def sees (tokens : List Token) : Composing Bool := do return tokens.contains (← peek)

/-- Passes the next token if it is the given one. -/
def passed (token : Token) : Composing Bool := do
  if (← peek) == token then
    pass
    return true
  return false

end Composing

open Composing

/-! Labels. -/

def standardHandles : List (String × String) := [("!", "!"), ("!!", Tag.common)]

/-- The name and the tag in front of a node. -/
structure Heading where
  name? : Option String := none
  tag? : Option String := none

def passName : Composing (Option String) := do
  match ← peek with
  | .anchor name =>
    pass
    return some name
  | _ => return none

/-- A tag as written: its handle and the rest of it. -/
def passTag : Composing (Option (Option String × String)) := do
  match ← peek with
  | .tag handle? suffix =>
    pass
    return some (handle?, suffix)
  | _ => return none

/-- A tag with the meaning of its handle. -/
def fullTag : Option String × String → Composing String
  | (none, suffix) => return suffix
  | (some handle, suffix) => do
    match (← get).handles.lookup handle with
    | some meaning => return meaning ++ suffix
    | none => throw .layout

/-- The heading of a node, whose parts may come in either order. -/
def heading : Composing Heading := do
  let name? ← passName
  let tag? ← passTag
  let name? ← if name?.isNone && tag?.isSome then passName else pure name?
  match tag? with
  | some tag => return { name?, tag? := some (← fullTag tag) }
  | none => return { name? }

namespace Heading

/-- What a node stands for whose form stands for something by itself. -/
def tagOr (tag : Tag) (heading : Heading) : Tag :=
  match heading.tag? with
  | none => tag
  | some name => if name == "!" then tag else Tag.ofName name

/-- What a scalar stands for; a single exclamation mark makes every scalar a plain one. -/
def scalarTag (heading : Heading) (text : String) (isPlain : Bool) : Tag :=
  heading.tagOr (if isPlain || heading.tag? == some "!" then Tag.ofPlain text else .text)

/-- Opens the node of a heading, whose name may not be taken. -/
def begin (heading : Heading) : Composing Unit := do
  match heading.name? with
  | none => return ()
  | some name =>
    let reader ← get
    if (reader.names.lookup name).isSome then throw .name
    set { reader with names := reader.names.assign name none }

/-- Gives the node of a heading its name. -/
def finish (heading : Heading) (node : Node) : Composing Node := do
  match heading.name? with
  | none => return node
  | some name =>
    modify fun reader => { reader with names := reader.names.assign name (some node) }
    return node

end Heading

/-- The node that an alias stands for. It may not stand inside itself. -/
def aliased (name : String) : Composing Node := do
  match (← get).names.lookup name with
  | some (some node) => return node
  | some none => throw .construction
  | none => throw .name

/-- A node without any content. -/
def emptyNode : Node := .scalar .null ""

/-! Nodes. -/

/-- What may stand in a place: blocks, and lists that are not indented further than their mapping. -/
structure Place where
  block : Bool := true
  level : Bool := false

mutual

def node (place : Place) : Nat → Composing Node
  | 0 => throw .layout
  | fuel + 1 => do
    if let .alias name ← peek then
      pass
      return (← aliased name)
    let heading ← heading
    let next ← peek
    let listed (items : Composing (List Node)) : Composing Node := do
      heading.begin
      heading.finish (.list (heading.tagOr .list) (← items))
    let mapped (entries : Composing (List (Node × Node))) : Composing Node := do
      heading.begin
      heading.finish (.mapping (heading.tagOr .mapping) (← entries))
    let valued (text : String) (isPlain : Bool) : Composing Node := do
      heading.begin
      heading.finish (.scalar (heading.scalarTag text isPlain) text)
    match next, place.block with
    | .scalar text isPlain, _ =>
      pass
      valued text isPlain
    | .listStart, _ => listed (do pass; flowItems true fuel)
    | .mappingStart, _ => mapped (do pass; flowEntries true fuel)
    | .blockList, true => listed (do pass; blockItems fuel)
    | .blockMapping, true => mapped (do pass; blockEntries fuel)
    | _, _ =>
      if place.level && next == .blockEntry then listed (levelItems fuel)
      else if heading.name?.isSome || heading.tag?.isSome then valued "" true
      else throw .layout

/-- The items of a list in a block. -/
def blockItems : Nat → Composing (List Node)
  | 0 => throw .layout
  | fuel + 1 => do
    if ← passed .blockEntry then
      let item ← nodeUnless [.blockEntry, .blockEnd] {} fuel
      return item :: (← blockItems fuel)
    else if ← passed .blockEnd then return []
    else throw .layout

/-- The items of a list that is not indented further than its mapping. -/
def levelItems : Nat → Composing (List Node)
  | 0 => throw .layout
  | fuel + 1 => do
    if ← passed .blockEntry then
      let item ← nodeUnless [.blockEntry, .key, .value, .blockEnd] {} fuel
      return item :: (← levelItems fuel)
    else return []

/-- The entries of a mapping in a block. -/
def blockEntries : Nat → Composing (List (Node × Node))
  | 0 => throw .layout
  | fuel + 1 => do
    if ← passed .key then
      let key ← nodeUnless [.key, .value, .blockEnd] { level := true } fuel
      let value ← valueUnless [.key, .value, .blockEnd] { level := true } fuel
      return (key, value) :: (← blockEntries fuel)
    else if ← passed .blockEnd then return []
    else throw .layout

/-- The items of a list in brackets. A key makes a mapping of one entry. -/
def flowItems (isFirst : Bool) : Nat → Composing (List Node)
  | 0 => throw .layout
  | fuel + 1 => do
    if ← passed .listEnd then return []
    if !isFirst then
      if !(← passed .flowEntry) then throw .layout
    if ← passed .key then
      let ends := [Token.flowEntry, .listEnd]
      let key ← nodeUnless (.value :: ends) { block := false } fuel
      let value ← valueUnless ends { block := false } fuel
      return .mapping .mapping [(key, value)] :: (← flowItems false fuel)
    else if ← passed .listEnd then return []
    else
      let item ← node { block := false } fuel
      return item :: (← flowItems false fuel)

/-- The entries of a mapping in braces. -/
def flowEntries (isFirst : Bool) : Nat → Composing (List (Node × Node))
  | 0 => throw .layout
  | fuel + 1 => do
    if ← passed .mappingEnd then return []
    if !isFirst then
      if !(← passed .flowEntry) then throw .layout
    if ← passed .key then
      let ends := [Token.flowEntry, .mappingEnd]
      let key ← nodeUnless (.value :: ends) { block := false } fuel
      let value ← valueUnless ends { block := false } fuel
      return (key, value) :: (← flowEntries false fuel)
    else if ← passed .mappingEnd then return []
    else
      let key ← node { block := false } fuel
      return (key, emptyNode) :: (← flowEntries false fuel)

/-- A node, which is empty before some tokens. -/
def nodeUnless (ends : List Token) (place : Place) : Nat → Composing Node
  | 0 => throw .layout
  | fuel + 1 => do if ← sees ends then return emptyNode else node place fuel

/-- The node after a colon; without a colon it is empty. -/
def valueUnless (ends : List Token) (place : Place) : Nat → Composing Node
  | 0 => throw .layout
  | fuel + 1 => do if ← passed .value then nodeUnless ends place fuel else return emptyNode

end

/-! Documents. -/

/-- Passes the marks at the end of a document. -/
def passEnds : Nat → Composing Unit
  | 0 => return ()
  | fuel + 1 => do if ← passed .documentEnd then passEnds fuel

/-- The handles that directives declare; a handle or a version is declared once, and only the first
version is known. -/
def declared (versioned : Bool) (handles : List (String × String)) :
    Nat → Composing (List (String × String))
  | 0 => return handles
  | fuel + 1 => do
    match ← peek with
    | .directive (.version major) =>
      pass
      if versioned || major != 1 then throw .layout
      declared true handles fuel
    | .directive (.handle name meaning) =>
      pass
      if (handles.lookup name).isSome then throw .layout
      declared versioned ((name, meaning) :: handles) fuel
    | .directive .other =>
      pass
      declared versioned handles fuel
    | _ => return handles

/-- The beginning of a document that says where it begins. -/
def passStart (fuel : Nat) : Composing Unit := do
  let handles ← declared false [] fuel
  if !(← passed .documentStart) then throw .layout
  modify fun reader => { reader with handles := handles ++ standardHandles }

def isDirective : Token → Bool
  | .directive _ => true
  | _ => false

/-- The content of a document; a text may have none. -/
def content (fuel : Nat) : Composing (Option Node) := do
  let next ← peek
  if next == .textEnd then return none
  if isDirective next || next == .documentStart then
    passStart fuel
    let next ← peek
    if isDirective next || [.documentStart, .documentEnd, .textEnd].contains next then return some emptyNode
    return some (← node {} fuel)
  modify fun reader => { reader with handles := standardHandles }
  return some (← node {} fuel)

/-- The only document of a text. -/
def document (fuel : Nat) : Composing (Option Node) := do
  let found? ← content fuel
  if found?.isSome then
    passEnds fuel
    if (← peek) != .textEnd then
      passStart fuel
      throw .name
  return found?

/-- The node of a text, if it has one. -/
def Node.ofText (text : String) : Reading (Option Node) := do
  let tokens := Tokens.ofText text
  return (← (document (4 * tokens.tokens.length + 8)).run { tokens }).1

end FormRules.Yaml

/-!
The tokens of a document. The beginnings and ends of blocks, which the indentation of lines shows, are
tokens as well.
-/

namespace FormRules.Yaml

/-- What a line at the head of a document says: its version, or what a handle stands for in tags. -/
inductive Directive where
  | version (major : Nat)
  | handle (name meaning : String)
  | other
deriving DecidableEq, Repr

inductive Token where
  | directive (content : Directive)
  | documentStart
  | documentEnd
  | textEnd
  | blockList
  | blockMapping
  | blockEnd
  | listStart
  | listEnd
  | mappingStart
  | mappingEnd
  | blockEntry
  | flowEntry
  | key
  | value
  | alias (name : String)
  | anchor (name : String)
  | tag (handle? : Option String) (suffix : String)
  | scalar (text : String) (isPlain : Bool)
deriving DecidableEq, Repr

end FormRules.Yaml

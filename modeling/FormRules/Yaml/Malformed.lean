/-!
What can be wrong with the text of a YAML document.
-/

namespace FormRules.Yaml

/-- The part of reading that failed: its characters, its marks, the code of a character, its
layout, the names of its nodes, the making of its values, or a word that is no truth value.
Values that cannot be kept here are not made either: half of a surrogate pair, bytes, sets and lists of pairs, a node
inside itself, and a whole number with more digits than may be written. -/
inductive Malformed where
  | character
  | mark
  | code
  | layout
  | name
  | construction
  | word
deriving DecidableEq, Repr

def Malformed.message : Malformed → String
  | .character => "special characters are not allowed"
  | .mark => "a mark stands where it may not"
  | .code => "chr() arg not in range(0x110000)"
  | .layout => "the document is not well formed"
  | .name => "a name is not defined"
  | .construction => "a value cannot be made"
  | .word => "a word is not a truth value"

end FormRules.Yaml

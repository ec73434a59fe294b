/-!
Finding a text inside another one, and cutting a text at a character.
-/

namespace FormRules.Text

/-- Whether some characters stand together somewhere in others. -/
def occurs (inner : List Char) : List Char → Bool
  | [] => inner.isEmpty
  | c :: rest => inner.isPrefixOf (c :: rest) || occurs inner rest

def contains (outer inner : String) : Bool := occurs inner.toList outer.toList

def startsWith (text start : String) : Bool := start.toList.isPrefixOf text.toList

def endsWith (text ending : String) : Bool := ending.toList.isSuffixOf text.toList

/-- The parts between the occurrences of a character, at least one. -/
def splitChars (mark : Char) : List Char → List (List Char)
  | [] => [[]]
  | c :: rest =>
    if c == mark then [] :: splitChars mark rest
    else
      match splitChars mark rest with
      | [] => [[c]]
      | part :: parts => (c :: part) :: parts

def split (mark : Char) (text : String) : List String := (splitChars mark text.toList).map String.ofList

theorem splitChars_ne_nil (mark : Char) (chars : List Char) : splitChars mark chars ≠ [] := by
  cases chars with
  | nil => simp [splitChars]
  | cons c rest =>
    unfold splitChars
    split
    · simp
    · split <;> simp

end FormRules.Text

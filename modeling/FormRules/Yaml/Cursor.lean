import FormRules.Yaml.Malformed

/-!
A place in the text of a document, with its line and column.
-/

namespace FormRules.Yaml

structure Cursor where
  rest : List Char
  index : Nat := 0
  line : Nat := 0
  column : Nat := 0

/-- The characters that end a line. -/
def isBreak (c : Char) : Bool := ['\n', '\r', '\u0085', '\u2028', '\u2029'].contains c

def isGap (c : Char) : Bool := c == ' ' || c == '\t'

def isMark (c : Char) : Bool := c.toNat == 0xFEFF

namespace Cursor

def peek? (cursor : Cursor) : Option Char := cursor.rest.head?

/-- Whether a line ends at a place; the end of the text ends a line too. -/
def endsLine (next? : Option Char) : Bool := next?.all isBreak

/-- Whether a word ends at a place. -/
def endsWord (next? : Option Char) : Bool := next?.all fun c => isBreak c || isGap c

def next (cursor : Cursor) : Cursor :=
  match cursor.rest with
  | [] => cursor
  | c :: rest =>
    if isBreak c then ⟨rest, cursor.index + 1, cursor.line + 1, 0⟩
    else ⟨rest, cursor.index + 1, cursor.line, if isMark c then cursor.column else cursor.column + 1⟩

/-- The place some characters on. -/
def skip : Nat → Cursor → Cursor
  | 0, cursor => cursor
  | count + 1, cursor => skip count cursor.next

/-- The characters up to the first one of another sort, and the place after them. -/
def span (holds : Char → Bool) (cursor : Cursor) : List Char × Cursor :=
  let taken := cursor.rest.takeWhile holds
  (taken, cursor.skip taken.length)

def dropWhile (holds : Char → Bool) (cursor : Cursor) : Cursor := (cursor.span holds).2

/-- The rest of a line, and its end. -/
def spanLine (cursor : Cursor) : List Char × Cursor := cursor.span fun c => !isBreak c

/-- Spaces up to a column. -/
def indentTo (column : Nat) (cursor : Cursor) : Cursor :=
  let spaces := cursor.rest.takeWhile (· == ' ')
  cursor.skip (min spaces.length (column - cursor.column))

/-- What the end of a line stands for: a line feed, unless it separates lines or paragraphs. -/
def breakText (c : Char) : Char := if c == '\u2028' || c == '\u2029' then c else '\n'

/-- The end of a line, if a line ends here, and the place after it. -/
def takeBreak? (cursor : Cursor) : Option (Char × Cursor) :=
  match cursor.rest with
  | c :: _ => if isBreak c then some (breakText c, cursor.next) else none
  | [] => none

/-- Whether three marks stand here that separate documents. -/
def atSeparator (mark : Char) (cursor : Cursor) : Bool :=
  cursor.rest.take 3 == [mark, mark, mark] && endsWord (cursor.rest.drop 3).head?

def atAnySeparator (cursor : Cursor) : Bool := cursor.atSeparator '-' || cursor.atSeparator '.'

/-- The characters that a document may hold. -/
def isAllowed (c : Char) : Bool :=
  let point := c.toNat
  point == 9 || point == 10 || point == 13 || (0x20 ≤ point && point ≤ 0x7E) || point == 0x85 ||
    (0xA0 ≤ point && point ≤ 0xD7FF) || (0xE000 ≤ point && point ≤ 0xFFFD) || 0x10000 ≤ point

end Cursor

end FormRules.Yaml

import FormRules.Pattern.Basic

/-!
Searching a text for a pattern. Of several ways to match, the first one in the order of the pattern
counts; a later part that fails makes an earlier one try its next way.
-/

namespace FormRules.Pattern

open Text

/-- A place in a text, the characters before it nearest first, with what the groups hold. -/
structure Place where
  before : List Char
  rest : List Char
  groups : List (Nat × List Char) := []

namespace Place

/-- The place `count` characters earlier. -/
def back : Nat → Place → Option Place
  | 0, place => some place
  | _ + 1, ⟨[], _, _⟩ => none
  | count + 1, ⟨c :: before, rest, groups⟩ => back count ⟨before, c :: rest, groups⟩

/-- The place after a given text, if that comes next. -/
def skip? (folded : Bool) (expected : List Char) (place : Place) : Option Place :=
  match expected with
  | [] => some place
  | e :: expected =>
    match place.rest with
    | [] => none
    | c :: rest =>
      if c == e || (folded && lowerChar c == lowerChar e) then
        skip? folded expected ⟨c :: place.before, rest, place.groups⟩
      else none

def bind (place : Place) (index : Nat) (held : List Char) : Place :=
  { place with groups := (index, held) :: place.groups.filter (·.1 != index) }

end Place

def isWordAt (narrow : Bool) (chars : List Char) : Bool := chars.head?.any (CharKind.holds narrow .word)

def Anchor.holds (anchor : Anchor) (place : Place) : Bool :=
  match anchor with
  | .textStart => place.before.isEmpty
  | .lineStart => place.before.head?.all (· == '\n')
  | .textEnd => place.rest.isEmpty
  | .lastLineEnd => place.rest.isEmpty || place.rest == ['\n']
  | .lineEnd => place.rest.head?.all (· == '\n')
  | .wordEdge negated narrow =>
    !(place.before.isEmpty && place.rest.isEmpty) &&
      (isWordAt narrow place.before != isWordAt narrow place.rest) != negated

/-- How a part is matched: from a place, and with what is to follow. -/
abbrev Way := Place → (Place → Option Place) → Option Place

/-- A part that has to be matched a given number of times. -/
def required (way : Way) : Nat → Way
  | 0, place, next => next place
  | count + 1, place, next => way place fun place => required way count place next

/-- A part that may be matched up to `bound` times. A match of nothing ends the repetition. -/
def optional (way : Way) (greedy : Bool) : Nat → Way
  | 0, place, next => next place
  | bound + 1, place, next =>
    let more (_ : Unit) := way place fun after =>
      if after.rest.length = place.rest.length then next after
      else optional way greedy bound after next
    if greedy then (more ()).orElse fun _ => next place else (next place).orElse more

/-- A part matched from `least` to `most?` times. -/
def counted (way : Way) (greedy : Bool) (least : Nat) (most? : Option Nat) : Way := fun place next =>
  required way least place fun place =>
    let bound := place.rest.length + 1
    optional way greedy (match most? with | some most => min bound (most - least) | none => bound)
      place next

/-- A match that is settled before what follows is tried. -/
def settled (way : Way) : Way := fun place next => (way place some).bind next

def run : Pattern → Way
  | .empty, place, next => next place
  | .one set, place, next =>
    match place.rest with
    | [] => none
    | c :: rest => if set.holds c then next ⟨c :: place.before, rest, place.groups⟩ else none
  | .anchor mark, place, next => if mark.holds place then next place else none
  | .followed first second, place, next => run first place fun place => run second place next
  | .either first second, place, next =>
    (run first place next).orElse fun _ => run second place next
  | .repeated appetite least most? body, place, next =>
    match appetite with
    | .greedy => counted (run body) true least most? place next
    | .lazy => counted (run body) false least most? place next
    | .possessive => settled (counted (run body) true least most?) place next
  | .group index body, place, next =>
    run body place fun after =>
      next (after.bind index (place.rest.take (place.rest.length - after.rest.length)))
  | .again folded index, place, next =>
    match place.groups.lookup index with
    | none => none
    | some held => (place.skip? folded held).bind next
  | .ahead negated body, place, next =>
    match run body place some with
    | some after => if negated then none else next { place with groups := after.groups }
    | none => if negated then next place else none
  | .behind negated width body, place, next =>
    match (place.back width).bind fun start => run body start some with
    | some after => if negated then none else next { place with groups := after.groups }
    | none => if negated then next place else none
  | .once body, place, next => settled (run body) place next
  | .given index present absent, place, next =>
    if (place.groups.lookup index).isSome then run present place next else run absent place next

/-- Whether the pattern matches at the place or at a later one. -/
def foundFrom (pattern : Pattern) (before : List Char) : List Char → Bool
  | [] => (pattern.run ⟨before, [], []⟩ some).isSome
  | c :: rest =>
    (pattern.run ⟨before, c :: rest, []⟩ some).isSome || foundFrom pattern (c :: before) rest

/-- Whether a text has a match of the pattern anywhere. -/
def found (pattern : Pattern) (text : String) : Bool := pattern.foundFrom [] text.toList

end FormRules.Pattern

import FormRules.Pattern.Class

/-!
Search patterns, and how much text each part of one can take.
-/

namespace FormRules

namespace Pattern

/-- A place that takes no text. -/
inductive Anchor where
  | textStart
  | lineStart
  | textEnd
  | lastLineEnd
  | lineEnd
  | wordEdge (negated narrow : Bool)
deriving DecidableEq, Repr

/-- How a repeated part chooses its count: as many as possible, as few as possible, or as many as
possible once and for all. -/
inductive Appetite where
  | greedy
  | lazy
  | possessive
deriving DecidableEq, Repr

end Pattern

open Pattern

inductive Pattern where
  | empty
  | one (set : CharClass)
  | anchor (place : Anchor)
  | followed (first second : Pattern)
  | either (first second : Pattern)
  | repeated (appetite : Appetite) (least : Nat) (most? : Option Nat) (body : Pattern)
  | group (index : Nat) (body : Pattern)
  | again (folded : Bool) (index : Nat)
  | ahead (negated : Bool) (body : Pattern)
  | behind (negated : Bool) (width : Nat) (body : Pattern)
  | once (body : Pattern)
  | given (index : Nat) (present absent : Pattern)

namespace Pattern

/-- The least and the greatest count of characters; the greatest may be unbounded. -/
structure Width where
  least : Nat
  most? : Option Nat
deriving DecidableEq

namespace Width

def both (first second : Option Nat) (combine : Nat → Nat → Nat) : Option Nat :=
  first.bind fun a => second.map (combine a)

def add (first second : Width) : Width :=
  ⟨first.least + second.least, both first.most? second.most? (· + ·)⟩

def join (first second : Width) : Width :=
  ⟨min first.least second.least, both first.most? second.most? max⟩

def times (width : Width) (least : Nat) (most? : Option Nat) : Width :=
  ⟨width.least * least,
    if width.most? = some 0 then some 0 else both width.most? most? (· * ·)⟩

end Width

/-- The width of a pattern, given the widths of its groups. -/
def width (groups : List (Nat × Width)) : Pattern → Width
  | .empty | .anchor _ | .ahead _ _ | .behind _ _ _ => ⟨0, some 0⟩
  | .one _ => ⟨1, some 1⟩
  | .followed first second => (first.width groups).add (second.width groups)
  | .either first second => (first.width groups).join (second.width groups)
  | .repeated _ least most? body => (body.width groups).times least most?
  | .group _ body | .once body => body.width groups
  | .again _ index => (groups.lookup index).getD ⟨0, none⟩
  | .given _ present absent => (present.width groups).join (absent.width groups)

/-- Patterns one after the other. -/
def chain : List Pattern → Pattern
  | [] => .empty
  | [last] => last
  | first :: rest => .followed first (chain rest)

/-- Patterns to choose from. -/
def choice : List Pattern → Pattern
  | [] => .empty
  | [last] => last
  | first :: rest => .either first (choice rest)

end Pattern

end FormRules

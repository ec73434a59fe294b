import FormRules.Text.Blank
import FormRules.Text.Case
import FormRules.Text.Digit
import FormRules.Text.Word

/-!
Classes of characters, as patterns name them: single characters, ranges and kinds, plain or negated,
with or without regard to case.
-/

namespace FormRules.Pattern

open Text

inductive CharKind where
  | digit
  | blank
  | word
deriving DecidableEq, Repr

/-- Whether a character is of a kind; the narrow kinds only know the first 128 characters. -/
def CharKind.holds (narrow : Bool) (kind : CharKind) (c : Char) : Bool :=
  (!narrow || c.toNat < 128) &&
    match kind with
    | .digit => isDecimal c
    | .blank => isBlank c && !(narrow && 28 ≤ c.toNat && c.toNat ≤ 31)
    | .word => isWord c

inductive ClassItem where
  | range (low high : Nat)
  | kind (negated narrow : Bool) (sort : CharKind)
deriving DecidableEq, Repr

def ClassItem.holds (item : ClassItem) (c : Char) : Bool :=
  match item with
  | .range low high => low ≤ c.toNat && c.toNat ≤ high
  | .kind negated narrow sort => sort.holds narrow c != negated

structure CharClass where
  items : List ClassItem
  negated : Bool := false
  folded : Bool := false
deriving DecidableEq, Repr

/-- Small letters with the other small letters that have the same capital. -/
def letterTwins : List (Nat × List Nat) := [
  (0x69, [0x131]), (0x73, [0x17F]), (0xB5, [0x3BC]), (0x131, [0x69]), (0x17F, [0x73]),
  (0x345, [0x3B9, 0x1FBE]), (0x390, [0x1FD3]), (0x3B0, [0x1FE3]), (0x3B2, [0x3D0]),
  (0x3B5, [0x3F5]), (0x3B8, [0x3D1]), (0x3B9, [0x345, 0x1FBE]), (0x3BA, [0x3F0]), (0x3BC, [0xB5]),
  (0x3C0, [0x3D6]), (0x3C1, [0x3F1]), (0x3C2, [0x3C3]), (0x3C3, [0x3C2]), (0x3C6, [0x3D5]),
  (0x3D0, [0x3B2]), (0x3D1, [0x3B8]), (0x3D5, [0x3C6]), (0x3D6, [0x3C0]), (0x3F0, [0x3BA]),
  (0x3F1, [0x3C1]), (0x3F5, [0x3B5]), (0x432, [0x1C80]), (0x434, [0x1C81]), (0x43E, [0x1C82]),
  (0x441, [0x1C83]), (0x442, [0x1C84, 0x1C85]), (0x44A, [0x1C86]), (0x463, [0x1C87]),
  (0x1C80, [0x432]), (0x1C81, [0x434]), (0x1C82, [0x43E]), (0x1C83, [0x441]),
  (0x1C84, [0x442, 0x1C85]), (0x1C85, [0x442, 0x1C84]), (0x1C86, [0x44A]), (0x1C87, [0x463]),
  (0x1C88, [0xA64B]), (0x1E61, [0x1E9B]), (0x1E9B, [0x1E61]), (0x1FBE, [0x345, 0x3B9]),
  (0x1FD3, [0x390]), (0x1FE3, [0x3B0]), (0xA64B, [0x1C88]), (0xFB05, [0xFB06]), (0xFB06, [0xFB05])]

/-- The capital that is one character, if there is one. -/
def capital (c : Char) : Char :=
  match upperOne c with
  | [one] => one
  | _ => c

/-- The characters that count as one when case is disregarded. -/
def kin (c : Char) : List Char :=
  let small := lowerChar c
  let twins := ((letterTwins.lookup small.toNat).getD []).map Char.ofNat
  c :: small :: capital small :: twins ++ twins.map capital

def CharClass.holds (set : CharClass) (c : Char) : Bool :=
  let holdsFor (c : Char) := set.items.any (·.holds c)
  (if set.folded then (kin c).any holdsFor else holdsFor c) != set.negated

/-- The class of one character. -/
def CharClass.single (folded : Bool) (point : Nat) : CharClass := ⟨[.range point point], false, folded⟩

end FormRules.Pattern

/-!
Blank characters, and texts trimmed of them at both ends.
-/

namespace FormRules.Text

/-- Whether a character only keeps others apart: the spaces and line ends of every script, and the
four information separators. -/
def isBlank (c : Char) : Bool :=
  let point := c.toNat
  (9 ≤ point && point ≤ 13) || (28 ≤ point && point ≤ 32) || point == 0x85 || point == 0xA0 ||
    point == 0x1680 || (0x2000 ≤ point && point ≤ 0x200A) || point == 0x2028 || point == 0x2029 ||
    point == 0x202F || point == 0x205F || point == 0x3000

/-- Characters without those at both ends for which a test holds. -/
def trimBy (test : Char → Bool) (chars : List Char) : List Char :=
  ((chars.dropWhile test).reverse.dropWhile test).reverse

def trimChars (chars : List Char) : List Char := trimBy isBlank chars

/-- A text without the blanks it begins and ends with. -/
def trim (text : String) : String := String.ofList (trimChars text.toList)

/-- Whether a text has nothing but blanks. -/
def allBlank (text : String) : Bool := text.toList.all isBlank

theorem dropWhile_eq_nil {p : Char → Bool} {chars : List Char} :
    chars.dropWhile p = [] ↔ chars.all p = true := by
  induction chars with
  | nil => simp
  | cons c rest ih => cases held : p c <;> simp [List.dropWhile, held, ih]

theorem trimChars_eq_nil {chars : List Char} : trimChars chars = [] ↔ chars.all isBlank = true := by
  rw [trimChars, trimBy, List.reverse_eq_nil_iff, dropWhile_eq_nil, List.all_reverse]
  induction chars with
  | nil => simp
  | cons c rest ih => cases blank : isBlank c <;> simp [List.dropWhile, blank, ih]

theorem trim_eq_empty {text : String} : trim text = "" ↔ allBlank text = true := by
  rw [trim, allBlank, ← trimChars_eq_nil]
  constructor
  · intro empty
    simpa using congrArg String.toList empty
  · intro empty
    simp [empty]

end FormRules.Text

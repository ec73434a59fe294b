import FormRules.Text.Printable

/-!
Texts between quotes. Single quotes are used unless the text has some and no double ones; what cannot
be shown is written by its number.
-/

namespace FormRules.Text

def singleQuote : Char := Char.ofNat 39

def doubleQuote : Char := Char.ofNat 34

def backslash : Char := Char.ofNat 92

def hexDigit (value : Nat) : Char := Char.ofNat (if value < 10 then 48 + value else 87 + value)

/-- A number in base sixteen with a fixed count of digits. -/
def hexDigits : Nat → Nat → List Char
  | 0, _ => []
  | count + 1, value => hexDigits count (value / 16) ++ [hexDigit (value % 16)]

/-- The quote that needs the fewest escapes. -/
def quoteFor (chars : List Char) : Char :=
  if chars.contains singleQuote && !chars.contains doubleQuote then doubleQuote else singleQuote

def quotedChar (quote c : Char) : List Char :=
  if c == quote || c == backslash then [backslash, c]
  else if c == '\n' then [backslash, 'n']
  else if c == '\r' then [backslash, 'r']
  else if c == '\t' then [backslash, 't']
  else if isPrintable c then [c]
  else if c.toNat < 0x100 then backslash :: 'x' :: hexDigits 2 c.toNat
  else if c.toNat < 0x10000 then backslash :: 'u' :: hexDigits 4 c.toNat
  else backslash :: 'U' :: hexDigits 8 c.toNat

def quoted (text : String) : String :=
  let quote := quoteFor text.toList
  String.ofList (quote :: text.toList.flatMap (quotedChar quote) ++ [quote])

/-- The first characters of a text between quotes. -/
def quotedStart (count : Nat) (text : String) : String :=
  String.ofList ((quoted text).toList.take count)

end FormRules.Text

import FormRules.Number.Decimal
import FormRules.Text.Quoted
import FormRules.Value.Basic

/-!
Values as text. A text stands for itself, and between quotes inside a list or an object.
-/

namespace FormRules

/-- A number as text. A whole number of a document is short enough to be written (`Json.digitLimit`), and those that are
made here do not get longer. -/
def Number.text : Number → String
  | .int n => toString n
  | .float x => x.text

def boolText (b : Bool) : String := if b then "True" else "False"

/-- Plain data as it stands inside a list or an object. -/
def Scalar.quotedText : Scalar → String
  | .null => "None"
  | .bool b => boolText b
  | .number n => n.text
  | .text s => Text.quoted s
  | .date d => d.quotedText
  | .moment m => m.quotedText

/-- Plain data on its own. -/
def Scalar.shown : Scalar → String
  | .text s => s
  | .date d => d.text
  | .moment m => m.text
  | scalar => scalar.quotedText

namespace Value

mutual

/-- A value as it stands inside a list or an object. -/
def quotedText : Value → String
  | .scalar s => s.quotedText
  | .list items => "[" ++ String.intercalate ", " (quotedItems items) ++ "]"
  | .object fields => "\x7b" ++ String.intercalate ", " (quotedFields fields) ++ "\x7d"
  | .handle name => s!"<function {name}>"

def quotedItems : List Value → List String
  | [] => []
  | item :: items => item.quotedText :: quotedItems items

def quotedFields : List (Scalar × Value) → List String
  | [] => []
  | (key, value) :: fields => (key.quotedText ++ ": " ++ value.quotedText) :: quotedFields fields

end

/-- A value on its own. -/
def shown : Value → String
  | .scalar s => s.shown
  | value => value.quotedText

end Value

end FormRules

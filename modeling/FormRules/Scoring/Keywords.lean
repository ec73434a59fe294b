import FormRules.Scoring.Score

/-!
Scoring free text by keywords. All required keywords have to appear; of the optional ones, half are
enough for full points, fewer earn between 60% and 80%, and none at all exactly 60%.
-/

namespace FormRules.Scoring

/-- What the required keywords alone earn. -/
def baseCredit : Number.Binary64 := .ofRatio false 6 10

/-- What is earned for each share of optional keywords. -/
def shareCredit : Number.Binary64 := .ofRatio false 4 10

/-- The keywords under a name, as they are looked through one by one. -/
def keywordList (keywords : Value) (name : String) (absent : Value) : Except Fault Value := do
  return (← keywords.field name).orElse absent

/-- Whether a text in lower case has a keyword. -/
def mentioned (text : String) (keyword : Value) : Except Fault Bool := do
  return Text.contains text (Text.lower (← keyword.asText "lower"))

/-- The keywords that a text lacks. -/
def missingKeywords (text : String) (keywords : List Value) : Except Fault (List Value) :=
  keywords.filterM fun keyword => do return !(← mentioned text keyword)

/-- The first three of the keywords, as a message names them. -/
def firstThree (keywords : Value) : Except Fault String := do
  match keywords with
  | .object _ => throw (.type (.unhashable "slice"))
  | keywords => Value.joinTexts ((← keywords.items).take 3)

/-- What a text with all required keywords earns, given how many optional ones it has. -/
def creditFor (stakes : Stakes) (found total : Nat) : Except Fault Value :=
  let share := Number.Binary64.ofRatio false found total
  if total ≤ 2 * found then .ok stakes.points
  else if 0 < found then stakes.points.mul (.float (baseCredit.add (shareCredit.mul share)))
  else stakes.points.mul (.float baseCredit)

/-- Points and message of a text that has all required keywords. -/
def credit (stakes : Stakes) (text : String) (optional : Value) : Except Fault (Value × Value) := do
  let items ← optional.items
  let found := (← items.filterM (mentioned text)).length
  let earned ← creditFor stakes found items.length
  if found = 0 then
    let hints ← firstThree optional
    return (earned, .text s!"Acceptable answer. Consider expanding on: {hints}")
  else return (earned, .null)

def keywords (answer : Value) (rule : Fields) : Except Fault Score := do
  let stakes := Stakes.ofRule rule
  let expected := (Fields.get rule "keywords").orElse
    (.ofFields [("required", .list []), ("optional", .list [])])
  let least := setting rule "minLength" (.int 0)
  let text := Text.lower (answerText answer)
  let required ← keywordList expected "required" (.list [])
  let optional ← keywordList expected "optional" (.list [])
  let lost ← stakes.lost
  let score (correct : Bool) (earned message : Value) : Score :=
    { correct, points := stakes.points, penalty := stakes.penalty, earned, message, answer, expected }
  if ← (Value.int text.length).compare .less least then
    return score false lost
      (messageOr rule s!"Answer is too short. At least {least.shown} characters are required.")
  let missing ← missingKeywords text (← required.items)
  if !missing.isEmpty then
    let names ← Value.joinTexts missing
    return score false lost (messageOr rule s!"Missing keywords: {names}")
  let (earned, message) ←
    if (setting rule "partialCredit" (.bool true)).truthy && optional.truthy then
      credit stakes text optional
    else pure (stakes.points, .null)
  return score true (← roundHalfUp earned 2) message

end FormRules.Scoring

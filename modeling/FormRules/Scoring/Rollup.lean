import FormRules.Condition.Evaluate
import FormRules.Scoring.Score

/-!
The sum of many scores: totals, categories, and the first tier whose condition holds.
-/

namespace FormRules.Scoring

structure Category where
  score : Value := .int 0
  most : Value := .int 0
  percentage : Value := .int 0

structure Rollup where
  total : Value
  most : Value
  percentage : Value
  evaluation : Value
  message : Value
  breakdown : List Score := []
  categories : Keyed Category := []

def Category.toValue (category : Category) : Value := .ofFields [
  ("score", category.score),
  ("max", category.most),
  ("percentage", category.percentage)]

def Rollup.toValue (rollup : Rollup) : Value := .ofFields [
  ("total_points", rollup.total),
  ("max_points", rollup.most),
  ("percentage", rollup.percentage),
  ("evaluation", rollup.evaluation),
  ("message", rollup.message),
  ("breakdown", .list (rollup.breakdown.map Score.toValue)),
  ("categories", .object (rollup.categories.map fun (key, category) => (key, category.toValue)))]

/-- What has been summed so far. -/
structure Sums where
  total : Value := .float .zero
  most : Value := .float .zero
  breakdown : List Score := []
  categories : Keyed Category := []

/-- Adds a score, to the totals first and then under its category. -/
def Sums.add (sums : Sums) (score : Score) (key? : Except Fault Scalar) : Except Fault Sums := do
  let total ← sums.total.add score.earned "+="
  let most ← sums.most.add score.points "+="
  let key ← key?
  let category := (Keyed.find? sums.categories key).getD {}
  let categoryScore ← category.score.add score.earned "+="
  let categoryMost ← category.most.add score.points "+="
  let categories := Keyed.insert sums.categories key ⟨categoryScore, categoryMost, category.percentage⟩
  return ⟨total, most, sums.breakdown ++ [score], categories⟩

/-- The category of a name: what the mapping says, or the common one. -/
def categoryOf (mapping name : Value) : Except Fault Scalar := do
  let fields ← mapping.asObject
  ((Keyed.find? fields (← name.asKey)).getD (.text "Other")).asKey

/-- Sums the scores of the names that have one, repeated names counting again. -/
def sumUp (scores : Keyed Score) (mapping : Value) (sums : Sums) : List Value → Except Fault Sums
  | [] => .ok sums
  | name :: names => do
    match Keyed.find? scores (← name.asKey) with
    | none => sumUp scores mapping sums names
    | some score => sumUp scores mapping (← sums.add score (categoryOf mapping name)) names

/-- A share of a hundred, or zero if there is nothing to share. -/
def percentageOf (score most : Value) : Except Fault Value := do
  if ← most.isPositive then (← score.div most).mul (.int 100) else return .int 0

def Category.rounded (category : Category) : Except Fault Category := do
  let percentage ←
    if ← category.most.isPositive then
      roundHalfUp (← (← category.score.div category.most).mul (.int 100)) 1
    else pure (.int 0)
  return ⟨← roundHalfUp category.score 2, category.most, percentage⟩

def roundCategories : Keyed Category → Except Fault (Keyed Category)
  | [] => .ok []
  | (key, category) :: rest => do return (key, ← category.rounded) :: (← roundCategories rest)

/-- Evaluation and message of the first tier whose condition holds. -/
def firstTier (source : Source) : List Value → Except Fault (Value × Value)
  | [] => .ok (.null, .null)
  | tier :: tiers => do
    let fields ← tier.asObject
    if ← Condition.evaluate source (.ofValue (Fields.get fields "condition")) then
      return (Fields.get fields "result", Fields.get fields "message")
    else firstTier source tiers

/-- The rollup of a rule that names no fields. -/
def Rollup.ofNothing : Rollup :=
  ⟨.int 0, .int 0, .int 0, .text "N/A", .text "No fields to aggregate", [], []⟩

def Rollup.ofScores (scores : Keyed Score) (rule : Fields) : Except Fault Rollup := do
  let inputs := (Fields.get rule "inputFields").orElse (.list [])
  if !inputs.truthy then return .ofNothing
  let mapping := (Fields.get rule "categoryMapping").orElse (.object [])
  let sums ← sumUp scores mapping {} (← inputs.items)
  let percentage ← percentageOf sums.total sums.most
  let categories ← roundCategories sums.categories
  let source := Source.flat [
    (.text "percentage", percentage), (.text "totalPoints", sums.total),
    (.text "maxPoints", sums.most)]
  let tiers ← ((Fields.get rule "evaluationRules").orElse (.list [])).items
  let (evaluation, message) ← firstTier source tiers
  return {
    total := ← roundHalfUp sums.total 2
    most := sums.most
    percentage := ← roundHalfUp percentage 1
    evaluation, message
    breakdown := sums.breakdown
    categories }

end FormRules.Scoring

import FormRules.Text.Sigma
import FormRules.Value.Access
import FormRules.Yaml.Node

/-!
The values of documents. Containers are filled from the outside in, so of several flaws the least deep
one shows.
-/

namespace FormRules.Yaml

open Number (Binary64 splitSign)

/-! Scalars. -/

/-- A text without bars between digits. -/
def withoutBars (text : String) : List Char := text.toList.filter (· != '_')

def notWhole (chars : List Char) (base : Nat) : Except Fault α :=
  .error (.value (.notWhole (String.ofList chars) base))

/-- The number of some digits of a base. -/
def inBase (base : Nat) (chars : List Char) : Except Fault Int :=
  match chars.mapM hexValue? with
  | some values =>
    if values.isEmpty || values.any (base ≤ ·) then notWhole chars base
    else .ok (values.foldl (fun sum value => base * sum + value) 0 : Nat)
  | none => notWhole chars base

def inTens (chars : List Char) : Except Fault Int :=
  match Number.int? (String.ofList chars) with
  | some (n, count) => if Json.digitLimit < count then .error (.value (.digits count)) else .ok n
  | none => notWhole chars 10

/-- A whole number, which says its base by its first digits or is written in base sixty. In base ten it may have only so
many digits, whatever its own base is. -/
def wholeOf (text : String) : Except Fault Int := do
  let (negative, body) := splitSign (withoutBars text)
  let size ← match body with
    | ['0'] => pure 0
    | '0' :: 'b' :: digits => inBase 2 digits
    | '0' :: 'x' :: digits => inBase 16 digits
    | '0' :: _ => inBase 8 body
    | _ => do
      let values ← (Plain.parts body).mapM inTens
      pure (values.foldl (fun sum value => 60 * sum + value) 0)
  if Nat.pow 10 Json.digitLimit ≤ size.natAbs then throw (.yaml .construction)
  return if negative then -size else size

def floatOf (chars : List Char) : Except Fault Binary64 :=
  match Number.float? (String.ofList chars) with
  | some x => .ok x
  | none => .error (.value (.notFloat (String.ofList chars)))

/-- The sum of some numbers, each times a power of sixty, the last one counting once. -/
def sexagesimal (base : Nat) (sum : Binary64) : List Binary64 → Except Fault Binary64
  | [] => .ok sum
  | x :: more =>
    match Binary64.ofInt? base with
    | some weight => sexagesimal (60 * base) (sum.add (x.mul weight)) more
    | none => .error (.overflow .float)

/-- A floating point number, which may be infinite, no number, or written in base sixty. -/
def decimalOf (text : String) : Except Fault Binary64 := do
  let (negative, body) := splitSign (Text.lower (String.ofList (withoutBars text))).toList
  let size ←
    if body == ".inf".toList then pure (.infinite false)
    else if body == ".nan".toList then pure .nan
    else if body.contains ':' then do
      sexagesimal 1 .zero (← (Plain.parts body).mapM floatOf).reverse
    else floatOf body
  return if negative then size.neg else size

def truthOf (text : String) : Except Fault Bool :=
  let word := Text.lower text
  if Plain.truths.contains word then .ok true
  else if Plain.untruths.contains word then .ok false
  else .error (.yaml .word)

def misfit (cause : Calendar.Misfit) : Except Fault α := .error (.value (.moment (.misfit cause)))

/-- A date, or a moment. The offset is checked before the date, and the date before the time. -/
def momentOf (text : String) : Except Fault Scalar := do
  let some form := Plain.momentForm? text.toList | throw (.attribute .null "groupdict")
  match form.time? with
  | some (_, some offset) =>
    if dayMicros ≤ offset.natAbs then throw (.value (.moment (.offset offset)))
  | _ => pure ()
  match Date.of form.year form.month form.day, form.time? with
  | .error cause, _ => misfit cause
  | .ok date, none => return .date date
  | .ok date, some (time, offset?) =>
    match time.misfit? with
    | some cause => misfit cause
    | none => return .moment ⟨date, time, offset?⟩

/-- The value of a scalar. -/
def scalarOf (tag : Tag) (text : String) : Except Fault Value := do
  match tag with
  | .null => return .null
  | .truth => return .bool (← truthOf text)
  | .whole => return .int (← wholeOf text)
  | .decimal => return .float (← decimalOf text)
  | .moment => return .scalar (← momentOf text)
  | .text => return .text text
  | _ => throw (.yaml .construction)

/-! Containers. -/

/-- What is wrong with a document, and how deep inside its containers. -/
structure Flaw where
  depth : Nat
  fault : Fault

abbrev Made (α : Type) := Except Flaw α

namespace Made

def broken (depth : Nat) : Made α := .error ⟨depth, .yaml .construction⟩

/-- Both of two parts, or the flaw that shows. -/
def both (first : Made α) (second : Made β) : Made (α × β) :=
  match first, second with
  | .ok a, .ok b => .ok (a, b)
  | .ok _, .error flaw | .error flaw, .ok _ => .error flaw
  | .error flaw, .error other => .error (if other.depth < flaw.depth then other else flaw)

end Made

open Made

/-- A key. What is wrong inside a container does not show, since no container is a key. -/
def keyOf (depth : Nat) (value : Made Value) : Made Scalar :=
  match value with
  | .ok (.scalar key) => .ok key
  | .ok _ => broken depth
  | .error flaw => if depth < flaw.depth then broken depth else .error flaw

mutual

/-- The value of a node at a depth. -/
def valueOf (depth : Nat) : Node → Made Value
  | .scalar tag text =>
    match tag with
    | .list | .mapping => broken (depth + 1)
    | tag => (scalarOf tag text).mapError (⟨depth, ·⟩)
  | .list tag items =>
    match tag with
    | .list => (itemsOf (depth + 1) items).map .list
    | .mapping => broken (depth + 1)
    | _ => broken depth
  | .mapping tag entries =>
    match tag with
    | .mapping => (entriesOf (depth + 1) entries).map fun (merged, own) =>
        .object (Keyed.ofPairs (merged ++ own))
    | .list => broken (depth + 1)
    | _ => broken depth

def itemsOf (depth : Nat) : List Node → Made (List Value)
  | [] => .ok []
  | item :: items => (both (valueOf depth item) (itemsOf depth items)).map fun (item, items) => item :: items

/-- The entries that come from other mappings, and the own ones. -/
def entriesOf (depth : Nat) : List (Node × Node) → Made (Fields × Fields)
  | [] => .ok ([], [])
  | (key, value) :: entries =>
    let more := entriesOf depth entries
    if key.tag == .merge then
      (both (mergedOf depth value) more).map fun (merged, others, own) => (merged ++ others, own)
    else
      let field := match key with
        | .scalar .default text => both (.ok (.text text)) (valueOf depth value)
        | key => both (keyOf depth (valueOf depth key)) (valueOf depth value)
      (both field more).map fun (field, merged, own) => (merged, field :: own)

/-- The entries of a mapping, or of several, the first of which counts most. -/
def mergedOf (depth : Nat) : Node → Made Fields
  | .mapping _ entries => (entriesOf depth entries).map fun (merged, own) => merged ++ own
  | .list _ items => mergedItems depth items
  | .scalar _ _ => broken depth

def mergedItems (depth : Nat) : List Node → Made Fields
  | [] => .ok []
  | .mapping _ entries :: items =>
    (both (entriesOf depth entries) (mergedItems depth items)).map fun ((merged, own), others) =>
      others ++ merged ++ own
  | _ :: _ => broken depth

end

/-- The value of a text, nothing counting as null. -/
def ofText (text : String) : Except Fault Value := do
  if !text.toList.all Cursor.isAllowed then throw (.yaml .character)
  match Node.ofText text with
  | .error cause => throw (.yaml cause)
  | .ok none => return .null
  | .ok (some node) =>
    match valueOf 0 node with
    | .ok value => return value
    | .error flaw => throw flaw.fault

end FormRules.Yaml

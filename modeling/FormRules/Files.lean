import FormRules.Form.Check
import FormRules.Json.Reader
import FormRules.Settings
import FormRules.Yaml.Document

/-!
Documents in files. The ending of a name says in which format a document is written. A form has to be in order, and
data have to be an object.
-/

namespace FormRules

/-- What stands under a path. -/
inductive Stored where
  | text (content : String)
  | directory

/-- Files under their paths. -/
abbrev Files := List (String × Stored)

namespace Files

/-! Paths. -/

/-- The parts of a path between slashes. -/
def parts (path : String) : List String :=
  ((path.toList.splitOn '/').map String.ofList).filter fun part => part != "" && part != "."

/-- The slashes at the beginning of a path from the root; two of them are kept. -/
def rootOf (path : String) : String :=
  let slashes := (path.toList.takeWhile (· == '/')).length
  if slashes = 0 then "" else if slashes = 2 then "//" else "/"

/-- A path without the parts that say nothing. -/
def normal (path : String) : String :=
  let shown := rootOf path ++ String.intercalate "/" (parts path)
  if shown.isEmpty then "." else shown

/-- The ending of a name: its last dot and what follows it. Neither may a name begin with that dot nor
end with it. -/
def ending (path : String) : String :=
  let name := ((parts path).getLast?.getD "").toList
  let after := name.reverse.takeWhile (· != '.')
  if after.isEmpty || name.length ≤ after.length + 1 then "" else String.ofList ('.' :: after.reverse)

/-! Documents. -/

/-- A text with each end of a line written as a line feed. -/
def withLineFeeds : List Char → List Char
  | '\r' :: '\n' :: rest => '\n' :: withLineFeeds rest
  | '\r' :: rest => '\n' :: withLineFeeds rest
  | c :: rest => c :: withLineFeeds rest
  | [] => []

/-- The value of a document. Its texts are made of characters, so it has none if it writes half of a surrogate pair. -/
def valueOf (path content : String) : Except Fault Value :=
  let text := String.ofList (withLineFeeds content.toList)
  if [".yaml", ".yml"].contains (ending path) then Yaml.ofText text
  else if Json.hasHalf false text.toList then .error (.type .halfPair)
  else (Json.ofText text).mapError .json

def has (files : Files) (path : String) : Bool := (files.lookup (normal path)).isSome

/-- The value of the document under a path. -/
def read (files : Files) (path : String) : Except Fault Value :=
  match files.lookup (normal path) with
  | none => .error (.missing (.other (normal path)))
  | some .directory => .error (.directory (normal path))
  | some (.text content) => valueOf path content

/-- A form, which has to be in order. -/
def form (files : Files) (path : String) : Except Fault Value := do
  if !files.has path then throw (.missing (.form (normal path)))
  let form ← files.read path
  let complaints := Form.complaints form
  if complaints.isEmpty then return form else throw (.form (normal path) complaints)

/-- Data, which have to be an object; nothing counts as an empty one. -/
def data (files : Files) (path : String) : Except Fault Value := do
  match ← files.read path with
  | .null => return .object []
  | .object fields => return .object fields
  | _ => throw (.value (.noDataMapping (normal path)))

/-- Settings; without a file all of them have their defaults. -/
def settings (files : Files) (path? : Option String) : Except Fault Settings := do
  match path?.filter files.has with
  | none => return {}
  | some path =>
    match (← files.read path).orElse (.object []) with
    | .object fields => Settings.ofValue (.object fields)
    | _ => throw (.value (.noSettingsMapping (normal path)))

end Files

end FormRules

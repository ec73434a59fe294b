import FormRules.Context.Basic

/-!
Contexts that have come from one another. They share the documents they are bound to and the caches
they carry, so that what is written through one is seen through the others.
-/

namespace FormRules

/-- A context by the number of its document and of its cache. -/
structure Member where
  root : Nat
  cache : Nat
  path : List Value
  external : Value
  params : Value

structure Family where
  settings : Settings
  timestamp : Moment
  roots : List Value
  caches : List Value
  members : List Member

namespace Family

/-- The steps of a path, nothing standing for none. -/
def pathOf (path : Value) : Except Fault (List Value) := (path.orElse (.list [])).items

def ofRoot (settings : Settings) (timestamp : Moment) (data cache path external params : Value) :
    Except Fault Family := do
  let path ← pathOf path
  return ⟨settings, timestamp, [data], [cache], [⟨0, 0, path, external, params⟩]⟩

def data (family : Family) (member : Member) : Value := (family.roots[member.root]?).getD .null

def cache (family : Family) (member : Member) : Value := (family.caches[member.cache]?).getD .null

/-- The value at a path, or another one where there is none. -/
def get (family : Family) (member : Member) (path absent : Value) : Except Fault Value := do
  let path ← path.asText "split"
  return (← Path.find? (family.data member) path).getD absent

def has (family : Family) (member : Member) (path : Value) : Except Fault Bool := do
  let path ← path.asText "split"
  return (← Path.find? (family.data member) path).isSome

/-- Writes a value at a path of a member's document. -/
def set (family : Family) (member : Member) (path value : Value) : Except Fault Family := do
  let path ← path.asText "split"
  let root ← Path.write (family.data member) path value
  return { family with roots := family.roots.set member.root root }

/-- Writes an entry into the cache that a member carries. -/
def remember (family : Family) (member : Member) (key value : Value) : Except Fault Family := do
  match family.cache member with
  | .object entries =>
    let key ← key.asKey
    let cache := Value.object (Keyed.insert entries key value)
    return { family with caches := family.caches.set member.cache cache }
  | other => throw (.type (.noAssignment other.kind))

/-- Adds a context like a given one, but for what is updated. Neither a document nor a path is
replaced by null. -/
def clone (family : Family) (member : Member) (updates : Fields) : Except Fault Family := do
  let newPath := Fields.get updates "path"
  let path ← if newPath.isNull then pure member.path else pathOf newPath
  let data := Fields.get updates "data"
  let (roots, root) :=
    if data.isNull then (family.roots, member.root) else (family.roots ++ [data], family.roots.length)
  let (caches, cache) :=
    match Keyed.find? updates (.text "cache") with
    | none => (family.caches, member.cache)
    | some cache => (family.caches ++ [cache], family.caches.length)
  let updated (name : String) (old : Value) : Value := (Keyed.find? updates (.text name)).getD old
  let added : Member :=
    ⟨root, cache, path, updated "external_context" member.external, updated "params" member.params⟩
  return { family with roots, caches, members := family.members ++ [added] }

/-- What a member shows of itself. -/
def view (family : Family) (member : Member) : Except Fault Value := do
  let steps ← Value.joinWith "." member.path
  return .ofFields [
    ("path", .list member.path),
    ("path_string", .text steps),
    ("params", member.params),
    ("data", family.data member),
    ("cache", family.cache member),
    ("external", member.external),
    ("mode", .text family.settings.mode.name),
    ("timestamp", .text family.timestamp.isoText)]

end Family

end FormRules

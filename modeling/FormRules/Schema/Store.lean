import FormRules.Json.Writer
import FormRules.Schema.Document

/-!
A store of schemas of limited size. Schemas that read the same apart from the order of their names share
an entry, which keeps the schema it was made for. When the store is full, its oldest entry makes room
for a new one. Main statement: a store does not outgrow its limit.
-/

namespace FormRules.Schema

/-- An entry of a store; entries are numbered in the order in which they were made. -/
structure Entry where
  key : String
  number : Nat
  schema : Value

structure Store where
  limit : Int := 500
  made : Nat := 0
  entries : List Entry := []

namespace Store

def find? (store : Store) (key : String) : Option Entry := store.entries.find? (·.key == key)

def isFull (store : Store) : Bool := store.limit ≤ store.entries.length

/-- Adds an entry at the end. A store without entries has none to make room with. -/
def add (store : Store) (key : String) (schema : Value) : Except Fault Entry × Store :=
  let entry : Entry := ⟨key, store.made, schema⟩
  let grown (entries : List Entry) : Except Fault Entry × Store :=
    (.ok entry, { store with made := store.made + 1, entries := entries ++ [entry] })
  if store.isFull then
    match store.entries with
    | [] => (.error .nothingStored, store)
    | _ :: newer => grown newer
  else grown store.entries

/-- The entry of a schema, made if there is none. -/
def fetch (store : Store) (schema : Value) : Except Fault Entry × Store :=
  match Json.canonical false schema with
  | .error fault => (.error fault, store)
  | .ok key =>
    match store.find? key with
    | some entry => (.ok entry, store)
    | none => store.add key schema

def clear (store : Store) : Store := { store with entries := [] }

def size (store : Store) : Nat := store.entries.length

/-- Whether a store keeps to its limit. -/
def Bounded (store : Store) : Prop := (store.entries.length : Int) ≤ store.limit

theorem bounded_add {store : Store} (bounded : store.Bounded) (key : String) (schema : Value) :
    (store.add key schema).2.Bounded := by
  unfold add
  by_cases full : store.isFull
  · cases held : store.entries with
    | nil => simpa [full, held] using bounded
    | cons oldest newer => simpa [full, held, Bounded] using bounded
  · simp only [full]
    have room : (store.entries.length : Int) < store.limit := by simpa [isFull] using full
    simp [Bounded]
    omega

theorem bounded_fetch {store : Store} (bounded : store.Bounded) (schema : Value) :
    (store.fetch schema).2.Bounded := by
  unfold fetch
  split
  · exact bounded
  · split
    · exact bounded
    · exact bounded_add bounded _ _

end Store

end FormRules.Schema

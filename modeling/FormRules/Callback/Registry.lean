import FormRules.Callback.Predefined

/-!
The registry of callbacks by name. Predefined callbacks are protected: they are replaced only where
that is asked for, and never removed.
-/

namespace FormRules

namespace Callback

structure Entry where
  callback? : Option Callback
  sort : Value := .text "custom"
  description : Value := .null
  isPredefined : Bool := false

def Predefined.entry (item : Predefined) : Entry where
  callback? := some item.callback
  sort := .text (if item.crossField then "crossField" else "custom")
  description := .text item.description
  isPredefined := true

end Callback

open Callback (Entry)

structure Registry where
  entries : Keyed Entry

namespace Registry

def empty : Registry := ⟨[]⟩

/-- Registers every predefined callback, in place of what has its name. -/
def withPredefined (registry : Registry) : Registry :=
  ⟨Callback.predefined.foldl (fun entries item => Keyed.insert entries (.text item.name) item.entry)
    registry.entries⟩

def standard : Registry := empty.withPredefined

/-- Whether a name is kept for a predefined callback. -/
def isProtected (registry : Registry) (name : Scalar) : Bool :=
  (Keyed.find? registry.entries name).any (·.isPredefined)

/-- Registers a callback, and says whether it has been registered. -/
def register (registry : Registry) (name : Scalar) (entry : Entry) (overwrite : Bool) :
    Registry × Bool :=
  if registry.isProtected name && !overwrite then (registry, false)
  else (⟨Keyed.insert registry.entries name { entry with isPredefined := false }⟩, true)

def find? (registry : Registry) (name : Scalar) : Option Callback :=
  (Keyed.find? registry.entries name).bind (·.callback?)

def has (registry : Registry) (name : Scalar) : Bool := Keyed.has registry.entries name

/-- Removes a callback that is not predefined, and says whether it has been removed. -/
def unregister (registry : Registry) (name : Scalar) : Registry × Bool :=
  match Keyed.find? registry.entries name with
  | none => (registry, false)
  | some entry =>
    if entry.isPredefined then (registry, false) else (⟨Keyed.erase registry.entries name⟩, true)

/-- Removes all callbacks that are not predefined. -/
def clearCustom (registry : Registry) : Registry :=
  ⟨registry.entries.filter fun (_, entry) => entry.isPredefined⟩

def names (registry : Registry) : List Scalar := Keyed.keys registry.entries

/-- What is known about every callback. -/
def toValue (registry : Registry) : Value :=
  .list (registry.entries.map fun (name, entry) => .ofFields [
    ("name", .scalar name),
    ("type", entry.sort),
    ("description", entry.description),
    ("predefined", .bool entry.isPredefined)])

/-- Registers the validators of settings, in place of what has their names. -/
def withValidators (registry : Registry) (table : Callback.Table) (validators : Fields) : Registry :=
  validators.foldl (fun registry (name, value) =>
    (registry.register name
      { callback? := Callback.ofValue? table value
        description := .text s!"Custom validator: {name.shown}" } true).1) registry

end Registry

end FormRules

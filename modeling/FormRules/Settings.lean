import FormRules.Value.Text
import FormRules.Value.Whole

/-!
The settings of a validator, and how they are read from a document: names in either of two spellings,
unknown names ignored, missing ones taken from the defaults.
-/

namespace FormRules

inductive Mode where
  | sequential
  | parallel
  | adaptive
deriving DecidableEq, Repr

namespace Mode

def name : Mode → String
  | .sequential => "sequential"
  | .parallel => "parallel"
  | .adaptive => "adaptive"

def ofValue? : Value → Option Mode
  | .text "sequential" => some .sequential
  | .text "parallel" => some .parallel
  | .text "adaptive" => some .adaptive
  | _ => none

/-- The way a pass is carried out: one rule after the other unless it is asked otherwise. -/
def carriedOut : Mode → String
  | .parallel => "parallel"
  | _ => "sequential"

end Mode

structure CacheSettings where
  enabled : Bool := false
  ttl : Value := .null
  maxSize : Value := .null
  debounce : Value := .null

structure Settings where
  mode : Mode := .sequential
  locale : Value := .text "en"
  cache : CacheSettings := {}
  devtools : Bool := false
  tenant : Value := .null
  adapter : Value := .text "jsonschema"
  validators : Fields := []
  timeout : Int := 5000

namespace Settings

/-- The usual spelling of a name. -/
def usualName (key : Scalar) : Scalar :=
  match key with
  | .text "asyncTimeoutMs" => .text "async_timeout_ms"
  | .text "tenantContext" => .text "tenant_context"
  | .text "customValidators" => .text "custom_validators"
  | .text "maxSize" => .text "max_size"
  | .text "debounceMs" => .text "debounce_ms"
  | key => key

/-- The fields of a document under their usual names. -/
def usualFields (value : Value) : Except Fault Fields :=
  match value with
  | .object fields => .ok (Keyed.ofPairs (fields.map fun (key, value) => (usualName key, value)))
  | value => .error (.attribute value.kind "items")

end Settings

def CacheSettings.ofFields (fields : Fields) : CacheSettings where
  enabled := (Fields.get fields "enabled").truthy
  ttl := Fields.get fields "ttl"
  maxSize := Fields.get fields "max_size"
  debounce := Fields.get fields "debounce_ms"

def CacheSettings.ofValue (value : Value) : Except Fault CacheSettings :=
  (Settings.usualFields (value.orElse (.object []))).map .ofFields

def CacheSettings.toValue (cache : CacheSettings) : Value := .ofFields [
  ("enabled", .bool cache.enabled),
  ("ttl", cache.ttl),
  ("max_size", cache.maxSize),
  ("debounce_ms", cache.debounce)]

namespace Settings

/-- The value of a setting, or its default where it is not given. -/
def given (fields : Fields) (name : String) (usual : Value) : Value :=
  (Keyed.find? fields (.text name)).getD usual

def ofValue (value : Value) : Except Fault Settings := do
  let defaults : Settings := {}
  let fields ← usualFields value
  let cache ← CacheSettings.ofValue (Fields.get fields "cache")
  let validators ← ((Fields.get fields "custom_validators").orElse (.object [])).toFields
  let timeout ← (given fields "async_timeout_ms" (.int defaults.timeout)).toWhole
  let mode := given fields "mode" (.text defaults.mode.name)
  match Mode.ofValue? mode with
  | none => throw (.value (.mode mode.shown))
  | some mode =>
    return {
      mode, cache, validators, timeout
      locale := given fields "locale" defaults.locale
      devtools := (given fields "devtools" (.bool defaults.devtools)).truthy
      tenant := Fields.get fields "tenant_context"
      adapter := given fields "adapter" defaults.adapter }

def toValue (settings : Settings) : Value := .ofFields [
  ("mode", .text settings.mode.name),
  ("locale", settings.locale),
  ("cache", settings.cache.toValue),
  ("devtools", .bool settings.devtools),
  ("tenant_context", settings.tenant),
  ("adapter", settings.adapter),
  ("custom_validators", .object settings.validators),
  ("async_timeout_ms", .int settings.timeout)]

end Settings

end FormRules

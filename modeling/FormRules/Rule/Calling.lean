import FormRules.Callback.Registry
import FormRules.Rule.Outcome
import FormRules.Value.Access

/-!
Rules that call a callback. What the callback says when it fails is the message; without that it is the
message of the rule.
-/

namespace FormRules.Rule

/-- Where callbacks are found: by name in a registry, or as functions that a rule holds itself. -/
structure Callbacks where
  registry : Registry
  table : Callback.Table := []

/-- The callback that a rule refers to. -/
def Callbacks.resolve (callbacks : Callbacks) (reference : Value) : Except Fault (Option Callback) := do
  match reference with
  | .handle name => return some ((callbacks.table.lookup name).getD (Callback.uncallable reference))
  | reference =>
    match callbacks.registry.find? (← reference.asKey) with
    | some callback => return some callback
    | none =>
      let _ ← Value.joinTexts (callbacks.registry.names.map .scalar)
      return none

/-- A failure with a message of its own where it has one. -/
def failureSaying (message : String) (rule : Fields) (fallback : String) : Outcome where
  valid := false
  error := (Value.text message).orElse ((Fields.get rule "message").orElse (.text fallback))

/-- Calls what a rule refers to. -/
def call (callbacks : Callbacks) (reference argument : Value) (context : Context) (rule : Fields)
    (fallback : String) : Except Fault Outcome := do
  match ← callbacks.resolve reference with
  | none => return .failure rule s!"Validator '{reference.shown}' is not registered"
  | some callback =>
    match callback argument context with
    | .ok answer => return if answer.truthy then .pass else .failure rule fallback
    | .error fault => return failureSaying fault.message rule fallback

def checkCustom (callbacks : Callbacks) (value : Value) (rule : Fields) (context : Context) :
    Except Fault Outcome :=
  let reference := Fields.get rule "validationCallback"
  if reference.truthy then call callbacks reference value context rule "Custom validation failed"
  else .ok .pass

/-- The callback of a rule on several fields with its parameters, if it names one. -/
def crossReference? (rule : Fields) : Option (Value × Value) :=
  match Fields.get rule "crossFieldValidator" with
  | .object fields =>
    (Keyed.find? fields (.text "name")).map fun name => (name, Fields.get fields "params")
  | reference => some (reference, .null)

/-- The values of some fields, put after those that are there. -/
def targetValues (context : Context) (values : Fields) : List Value → Except Fault Fields
  | [] => .ok values
  | target :: targets => do
    let value ← context.value target
    targetValues context (Keyed.insert values (← target.asKey) value) targets

def checkCrossField (callbacks : Callbacks) (value : Value) (rule : Fields) (context : Context) :
    Except Fault Outcome := do
  let targets := Fields.get rule "targetFields"
  if !targets.truthy || !(Fields.get rule "crossFieldValidator").truthy then return .pass
  else
    match crossReference? rule with
    | none => return .pass
    | some (reference, params) =>
      let values ← targetValues context [(Callback.ownKey, value)] (← targets.items)
      call callbacks reference (.object values) (context.withParams params) rule
        "Cross-field validation failed"

def checkPlugin (callbacks : Callbacks) (value : Value) (rule : Fields) (context : Context) :
    Except Fault Outcome :=
  let name := Fields.get rule "pluginName"
  if name.truthy then
    call callbacks name value (context.withParams (Fields.get rule "pluginConfig")) rule
      "Plugin validation failed"
  else .ok .pass

end FormRules.Rule

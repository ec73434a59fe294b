import FormRules.Rule.Calling
import FormRules.Rule.Compare
import FormRules.Rule.Remote
import FormRules.Rule.Static
import FormRules.Rule.Temporal

/-!
Backends, which check a value by a rule. The standard backend has a way to check for each kind of rule;
rules of kinds that it has no way for pass.
-/

namespace FormRules

/-- A backend with state: it checks a value by a rule in a context. What it did before a fault stays
done. -/
abbrev Backend (σ : Type) := Value → Fields → Context → σ → Except Fault Outcome × σ

namespace Rule

/-- What the standard backend carries from rule to rule. -/
structure Session where
  schemas : Schema.Store := {}
  traffic : Traffic := {}

/-- What the standard backend has at its disposal. -/
structure Means where
  callbacks : Callbacks
  transport : Transport := Transport.offline

def check (means : Means) : Backend Session := fun value rule context session =>
  let callbacks := means.callbacks
  match RuleKind.ofValue? (Fields.get rule "type") with
  | none => (.ok .pass, session)
  | some .compare => (checkCompare value rule context, session)
  | some .custom => (checkCustom callbacks value rule context, session)
  | some .crossField => (checkCrossField callbacks value rule context, session)
  | some .plugin => (checkPlugin callbacks value rule context, session)
  | some .temporal => (checkTemporal rule context, session)
  | some .async =>
    let (outcome, traffic) := checkRemote means.transport value rule context session.traffic
    (outcome, { session with traffic })
  | some kind =>
    let (outcome, schemas) := checkStatic kind rule value session.schemas
    (outcome, { session with schemas })

end Rule

end FormRules

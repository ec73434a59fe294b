import FormRules.Rule.Backend

/-! Calls on the standard backend, one after another, and what each of them leaves alone. -/

namespace FormRules.Rule

/-- What can be asked of the standard backend: to check a value by a rule, to make a schema ready, or to forget
all schemas. -/
inductive Call where
  | check (value : Value) (rule : Fields) (context : Context)
  | fetch (schema : Value)
  | clear

/-- What a call leaves behind. -/
def Call.run (means : Means) (session : Session) : Call → Session
  | .check value rule context => (Rule.check means value rule context session).2
  | .fetch schema => { session with schemas := (session.schemas.fetch schema).2 }
  | .clear => { session with schemas := session.schemas.clear }

/-- What calls leave behind, one after another. -/
def Session.after (means : Means) (session : Session) (calls : List Call) : Session :=
  calls.foldl (Call.run means) session

namespace Session

variable (means : Means) (session : Session)

@[simp] theorem after_nil : session.after means [] = session := rfl

@[simp] theorem after_append (calls more : List Call) :
    session.after means (calls ++ more) = (session.after means calls).after means more :=
  List.foldl_append

theorem after_concat (calls : List Call) (call : Call) :
    session.after means (calls ++ [call]) = call.run means (session.after means calls) := by
  rw [after_append]
  rfl

end Session

/-- The rules that ask another party. -/
def IsRemote (rule : Fields) : Prop := RuleKind.ofValue? (Fields.get rule "type") = some .async

section

variable {means : Means} {value : Value} {rule : Fields} {context : Context} (session : Session)

theorem check_of_remote (remote : IsRemote rule) : check means value rule context session =
    ((checkRemote means.transport value rule context session.traffic).1,
      { session with traffic := (checkRemote means.transport value rule context session.traffic).2 }) := by
  unfold check
  rw [remote]

/-- Only rules that ask another party add to the traffic. -/
theorem check_traffic_of_not_remote (otherwise : ¬IsRemote rule) :
    (check means value rule context session).2.traffic = session.traffic := by
  unfold check
  unfold IsRemote at otherwise
  split <;> first | rfl | contradiction

/-- The schema of a rule on the value alone. -/
def ownSchema? (rule : Fields) : Option Value :=
  (RuleKind.ofValue? (Fields.get rule "type")).bind (schema? · rule)

/-- Only rules with a schema of their own touch the store, and only to fetch that schema. -/
theorem check_schemas : (check means value rule context session).2.schemas =
    match ownSchema? rule with
    | none => session.schemas
    | some schema => (session.schemas.fetch schema).2 := by
  unfold check ownSchema?
  cases RuleKind.ofValue? (Fields.get rule "type") with
  | none => rfl
  | some kind =>
    have static : (checkStatic kind rule value session.schemas).2 =
        match schema? kind rule with
        | none => session.schemas
        | some schema => (session.schemas.fetch schema).2 := by
      unfold checkStatic
      cases schema? kind rule with
      | none => rfl
      | some schema =>
        simp only
        generalize session.schemas.fetch schema = fetched
        obtain ⟨made, store⟩ := fetched
        cases made <;> rfl
    cases kind <;> first | rfl | exact static

end

end FormRules.Rule

import FormRules.Proofs.BrokenConditions

/-! Rules of a form that fail to score. What a rule would have stored is not stored, and what was stored before it is as
it was, so that the rules after it find the scores as if it were not there. A form without some of its failing rules
comes to the same report. -/

namespace FormRules

namespace FormScores

/-- Whether the rule at a place is at fault when its turn comes. -/
def FailsAt (context : Context) (all : FormScores) (rules : List Value) (place : Nat) : Prop :=
  ∃ rule sofar fault, rules[place]? = some (.object rule) ∧ applyAll context all (rules.take place) = .ok sofar ∧
    apply context rule sofar = .error fault

/-- Rules without those at some places. -/
def without (dropped : Nat → Bool) : List Value → List Value
  | [] => []
  | rule :: rules =>
    let rest := without (fun place => dropped (place + 1)) rules
    if dropped 0 then rest else rule :: rest

variable {context : Context} {all : FormScores} {rules : List Value}

theorem FailsAt.of_any {rule : Fields} {place : Nat} (found : rules[place]? = some (.object rule))
    (fails : (applyAll context all (rules.take place)).toOption.any fun sofar => (apply context rule sofar).toOption.isNone) :
    FailsAt context all rules place := by
  cases start : applyAll context all (rules.take place) with
  | error fault =>
    rw [start] at fails
    cases fails
  | ok sofar =>
    cases ended : apply context rule sofar with
    | ok more => simp [start, ended, Except.toOption] at fails
    | error fault => exact ⟨rule, sofar, fault, found, start, ended⟩

theorem FailsAt.here {rule : Value} (fails : FailsAt context all (rule :: rules) 0) :
    ∃ fields fault, rule = .object fields ∧ apply context fields all = .error fault := by
  obtain ⟨fields, sofar, fault, found, start, ended⟩ := fails
  cases found
  cases start
  exact ⟨fields, fault, rfl, ended⟩

theorem FailsAt.later {fields : Fields} {place : Nat} (fails : FailsAt context all (.object fields :: rules) (place + 1)) :
    FailsAt context ((apply context fields all).toOption.getD all) rules place := by
  obtain ⟨rule, sofar, fault, found, before, ended⟩ := fails
  rw [List.take_succ_cons, applyAll_object] at before
  exact ⟨rule, sofar, fault, found, before, ended⟩

/-- Rules that are at fault can be left out together: each of the others finds the same scores as before. -/
theorem applyAll_without {dropped : Nat → Bool} (faulty : ∀ place, dropped place = true → FailsAt context all rules place) :
    applyAll context all (without dropped rules) = applyAll context all rules := by
  induction rules generalizing all dropped with
  | nil => rfl
  | cons rule rules ih =>
    cases rule with
    | object fields =>
      have rest := ih fun place out => (faulty (place + 1) out).later
      rw [applyAll_object, ← rest, without]
      cases out : dropped 0 with
      | true =>
        obtain ⟨_, fault, same, ended⟩ := (faulty 0 out).here
        cases same
        rw [if_pos rfl, ended]
        rfl
      | false => rw [if_neg Bool.false_ne_true, applyAll_object]
    | scalar | list | handle =>
      have kept : dropped 0 = false := by
        refine Bool.eq_false_iff.mpr fun out => ?_
        obtain ⟨_, _, same, _⟩ := (faulty 0 out).here
        cases same
      rw [without, kept]
      rfl

end FormScores

namespace Form

/-- A form with other rules that score it as a whole. -/
def withScoring (fields : Fields) (rules : List Value) : Value :=
  .object (Keyed.insert fields (.text "computedRules") (.list rules))

variable (fields : Fields) (rules : List Value)

theorem scoring_withScoring :
    Pass.listIn (Keyed.insert fields (.text "computedRules") (.list rules)) "computedRules" = .ok rules := by
  rw [Pass.listIn, Fields.get, Keyed.find?_insert_text_self]
  cases rules <;> rfl

theorem items_withScoring : Pass.listIn (Keyed.insert fields (.text "computedRules") (.list rules)) "items" =
    Pass.listIn fields "items" := by
  rw [Pass.listIn, Fields.get, Keyed.find?_insert_text_other _ (by decide)]
  rfl

end Form

namespace Pass

section Passes

variable {σ : Type} {backend backend' : Backend σ} {context : Context} {state : σ} {report : Report} {last : Progress σ}
  {fields : Fields} {rules others : List Value}

/-- Where the items of a form can be checked, its report is theirs with the scores, if these can be come to. -/
theorem checkForm_run {items : List Value} {gathered : Report} (given : context.form = .object fields)
    (inside : listIn fields "items" = .ok items)
    (ended : (checkItems backend context (.text "") Report.counting (Item.ofList items)).run.run { backend := state } =
      (.ok gathered, last))
    (listed : listIn fields "computedRules" = .ok rules) :
    (checkForm backend context).run.run { backend := state } =
      ((FormScores.applyAll context { scores := last.scores } rules).map (·.addTo gathered), last) := by
  unfold checkForm
  rw [given]
  show (liftM (listIn fields "items") >>= _ : Pass σ Report).run.run _ = _
  rw [inside, lift_ok_bind, run_bind_of_ok ended, listed, lift_ok_bind, run_bind_of_ok run_get]
  cases FormScores.applyAll context { scores := last.scores } rules <;> rfl

/-- Other rules that come to the same scores come to the same report. -/
theorem checkForm_withScoring (given : context.form = .object fields) (listed : listIn fields "computedRules" = .ok rules)
    (run : (checkForm backend context).run.run { backend := state } = (.ok report, last))
    (scored : FormScores.applyAll context { scores := last.scores } others =
      FormScores.applyAll context { scores := last.scores } rules)
    (alike : ∀ value rule path state, backend' value rule ((context.withForm (Form.withScoring fields others)).child path) state =
      backend value rule (context.child path) state) :
    ((checkForm backend' (context.withForm (Form.withScoring fields others))).run.run { backend := state }).1 = .ok report := by
  obtain ⟨form, items, gathered, rules', all, known, inside, ended, scoring, applied, rfl⟩ := checkForm_ok run
  obtain rfl : fields = form := by
    rw [given] at known
    exact Except.ok.inj known
  obtain rfl : rules = rules' := Except.ok.inj (listed.symm.trans scoring)
  have start : Twins Eq Eq ({ backend := state } : Progress σ) { backend := state } := ⟨rfl, rfl, rfl⟩
  obtain ⟨_, _, _, broken, _⟩ | ⟨_, _, last', first, ended', twins⟩ :=
    checkItems_withForm alike (.text "") Report.counting (Item.ofList items) _ _ start
  · rw [ended] at broken
    cases broken
  · rw [ended] at first
    cases first
    have inside' := (Form.items_withScoring fields others).trans inside
    have same (all : FormScores) : FormScores.applyAll (context.withForm (Form.withScoring fields others)) all others =
        FormScores.applyAll context all others := applyAll_congr (by rfl) all others
    rw [checkForm_run rfl inside' ended' (Form.scoring_withScoring fields others), same, ← twins.scores, scored, applied]
    rfl

/-- A form without some of the rules that fail to score it comes to the same report, with the same results in the same
order. The contexts of fields hold the form. So the backend is shown the form as it was, or it is one that does not tell
the two forms apart. -/
theorem checkForm_without (given : context.form = .object fields) (listed : listIn fields "computedRules" = .ok rules)
    (run : (checkForm backend context).run.run { backend := state } = (.ok report, last)) {dropped : Nat → Bool}
    (faulty : ∀ place, dropped place = true → FormScores.FailsAt context { scores := last.scores } rules place) :
    let spared := context.withForm (Form.withScoring fields (FormScores.without dropped rules))
    ((checkForm (backend.seeing context.form) spared).run.run { backend := state }).1 = .ok report ∧
      ((∀ value rule path state,
          backend value rule (spared.child path) state = backend value rule (context.child path) state) →
        ((checkForm backend spared).run.run { backend := state }).1 = .ok report) := by
  have scored := FormScores.applyAll_without faulty
  exact ⟨checkForm_withScoring given listed run scored fun _ _ _ _ => rfl, checkForm_withScoring given listed run scored⟩

/-- For the standard backend it is enough that its callbacks go by their value and their parameters alone. -/
theorem check_without {means : Rule.Means} (confined : means.callbacks.Local) {session : Rule.Session}
    {last : Progress Rule.Session} (given : context.form = .object fields)
    (listed : listIn fields "computedRules" = .ok rules)
    (run : (checkForm (Rule.check means) context).run.run { backend := session } = (.ok report, last))
    {dropped : Nat → Bool}
    (faulty : ∀ place, dropped place = true → FormScores.FailsAt context { scores := last.scores } rules place) :
    ((checkForm (Rule.check means)
        (context.withForm (Form.withScoring fields (FormScores.without dropped rules)))).run.run
          { backend := session }).1 = .ok report :=
  checkForm_withScoring given listed run (FormScores.applyAll_without faulty) fun value rule path session =>
    Rule.check_withForm confined value rule (context.child path) _ session

end Passes

namespace Quiz

/-- A rule that sums up the score of a question, with a name that is no key. -/
def unnamed : Fields := [
  (.text "type", .text "aggregate"), (.text "name", .list []), (.text "inputFields", .list [.text "question"])]

/-- A rule that scores a question and takes off a text for a wrong answer. -/
def mispriced : Fields := [(.text "type", .text "field"), (.text "fieldName", .text "question"),
  (.text "correctAnswer", .int 2), (.text "penalty", .text "none")]

def scoring : Value := .ofFields [("type", .text "field"), ("fieldName", .text "question"), ("correctAnswer", .int 1)]

def rules : List Value := [scoring, .object mispriced, .object unnamed]

def fields : Fields := [(.text "computedRules", .list rules), (.text "formId", .text "quiz")]

def context : Context := (Context.ofData (.ofFields [("question", .int 1)])).withForm (.object fields)

def backend : Backend Unit := fun _ _ _ state => (.ok .pass, state)

/-- The places of the rules that fail. -/
def dropped (place : Nat) : Bool := place == 1 || place == 2

end Quiz

open Quiz in
theorem checkForm_without_quiz : ∃ report,
    ((checkForm backend context).run.run { backend := () }).1 = .ok report ∧
    ((checkForm backend (context.withForm (Form.withScoring fields [scoring]))).run.run { backend := () }).1 = .ok report := by
  have completed : ((checkForm backend context).run.run { backend := () }).1.toOption.isSome = true := by decide +kernel
  rcases run : (checkForm backend context).run.run { backend := () } with ⟨_ | report, last⟩
  · rw [run] at completed
    cases completed
  · have unscored : last.scores = [] := by
      obtain ⟨_, _, _, _, _, known, inside, ended, _⟩ := checkForm_ok run
      cases known
      cases inside
      cases ended
      rfl
    have faulty : ∀ place, dropped place = true →
        FormScores.FailsAt context { scores := last.scores } rules place := by
      rw [unscored]
      intro place out
      obtain rfl | rfl : place = 1 ∨ place = 2 := by simpa [dropped] using out
      · exact .of_any (show rules[1]? = some (.object mispriced) from rfl) (by decide +kernel)
      · exact .of_any (show rules[2]? = some (.object unnamed) from rfl) (by decide +kernel)
    exact ⟨report, rfl, (checkForm_without rfl rfl run faulty).2 fun _ _ _ _ => rfl⟩

end Pass

end FormRules

import FormRules.Proofs.FormCompletion
import FormRules.Proofs.PassOutcome
import FormRules.Proofs.ScoreOrder

/-! Where the sums of scores end up in the report of a form. The rules that score a form as a whole are applied in the
order of the form, so a sum is one of the scores so far; and scores and sums share one set of names, in which a score
has precedence. -/

namespace FormRules

namespace FormScores

/-- The name under which a rule sums scores up, if that is what it does. -/
def rollupName? (rule : Fields) : Option Scalar :=
  if (Fields.get rule "type").same (.text "aggregate") then (Fields.get rule "name").asKey.toOption else none

/-- The name of the field to which a rule gives a score, if that is what it does. -/
def scoredName? (rule : Fields) : Option Scalar :=
  if (Fields.get rule "type").same (.text "field") then (Fields.get rule "fieldName").asKey.toOption else none

def rollupNames (rules : List Value) : List Scalar := rules.filterMap (·.asObject.toOption.bind rollupName?)

def scoredNames (rules : List Value) : List Scalar := rules.filterMap (·.asObject.toOption.bind scoredName?)

section Names

variable {rule : Fields} {rules : List Value} {key : Scalar} (member : .object rule ∈ rules)

include member

theorem mem_rollupNames (name : rollupName? rule = some key) : key ∈ rollupNames rules :=
  List.mem_filterMap.mpr ⟨_, member, name⟩

theorem mem_scoredNames (name : scoredName? rule = some key) : key ∈ scoredNames rules :=
  List.mem_filterMap.mpr ⟨_, member, name⟩

end Names

theorem rollupNames_append (before after : List Value) {rule : Fields} {key : Scalar}
    (name : rollupName? rule = some key) :
    rollupNames (before ++ .object rule :: after) = rollupNames before ++ key :: rollupNames after := by
  have here : rollupNames (.object rule :: after) = key :: rollupNames after := List.filterMap_cons_some name
  rw [← here]
  exact List.filterMap_append

/-- What a rule makes of scores. -/
inductive Applied (rule : Fields) (all : FormScores) : FormScores → Prop
  | passed : Applied rule all all
  | scored {key : Scalar} (name : scoredName? rule = some key) (score : Scoring.Score) :
    Applied rule all { all with scores := Keyed.insert all.scores key score }
  | summed {key : Scalar} {rollup : Scoring.Rollup} (name : rollupName? rule = some key)
      (sum : Scoring.Rollup.ofScores all.scores rule = .ok rollup) :
    Applied rule all { all with rollups := Keyed.insert all.rollups key rollup }

theorem scoreField_applied (context : Context) {rule : Fields}
    (type : (Fields.get rule "type").same (.text "field") = true) (all : FormScores) :
    Applied rule all ((scoreField context rule all).toOption.getD all) := by
  unfold scoreField
  simp only
  split
  next =>
    cases context.value (Fields.get rule "fieldName") with
    | error fault => exact .passed
    | ok value =>
      show Applied rule all
        ((Pass.withScore all.scores (Fields.get rule "fieldName") value rule >>= fun scores =>
          .ok { all with scores }).toOption.getD all)
      obtain ⟨fault, ended⟩ | kept | ⟨key, score, known, ended⟩ :=
        Pass.withScore_cases (Fields.get rule "fieldName") value rule
      · rw [ended]
        exact .passed
      · rw [kept]
        exact .passed
      · rw [ended]
        exact .scored (by rw [scoredName?, if_pos type, known]; rfl) score
  next => exact .passed

theorem sumUp_applied {rule : Fields} (type : (Fields.get rule "type").same (.text "aggregate") = true)
    (all : FormScores) : Applied rule all ((sumUp rule all).toOption.getD all) := by
  unfold sumUp
  cases sum : Scoring.Rollup.ofScores all.scores rule with
  | error fault => exact .passed
  | ok rollup =>
    cases known : (Fields.get rule "name").asKey with
    | error fault => exact .passed
    | ok key => exact .summed (by rw [rollupName?, if_pos type, known]; rfl) sum

/-- A rule that is at fault is passed over. -/
theorem apply_applied (context : Context) (rule : Fields) (all : FormScores) :
    Applied rule all ((apply context rule all).toOption.getD all) := by
  unfold apply
  simp only
  split
  next type => exact scoreField_applied context type all
  next =>
    split
    next type => exact sumUp_applied type all
    next => exact .passed

/-- A rule that can sum scores up puts the sum under its name. -/
theorem apply_of_rollup (context : Context) {rule : Fields} {all : FormScores} {key : Scalar} {rollup : Scoring.Rollup}
    (name : rollupName? rule = some key) (sum : Scoring.Rollup.ofScores all.scores rule = .ok rollup) :
    apply context rule all = .ok { all with rollups := Keyed.insert all.rollups key rollup } := by
  unfold rollupName? at name
  split at name
  next type =>
    have other : (Fields.get rule "type").same (.text "field") = false := by
      rw [Value.eq_of_same_text type, Value.same_text]
      rfl
    have known : (Fields.get rule "name").asKey = .ok key := by
      cases named : (Fields.get rule "name").asKey <;> rw [named] at name <;> cases name
      rfl
    unfold apply sumUp
    simp only [other, type, sum, known]
    rfl
  next => cases name

section Runs

variable {context : Context} {rules : List Value} {all later : FormScores}

/-- What each rule keeps is kept by all of them. -/
theorem applyAll_keeps (property : FormScores → Prop) (run : applyAll context all rules = .ok later)
    (keeps : ∀ rule, .object rule ∈ rules → ∀ all more, Applied rule all more → property all → property more)
    (start : property all) : property later := by
  induction rules generalizing all with
  | nil =>
    cases run
    exact start
  | cons rule rules ih =>
    cases rule with
    | scalar _ | list _ | handle _ => cases run
    | object rule =>
      rw [applyAll_object] at run
      refine ih run (fun other member => keeps other (List.mem_cons_of_mem _ member)) ?_
      exact keeps rule List.mem_cons_self _ _ (apply_applied context rule all) start

theorem applyAll_append (before after : List Value) :
    applyAll context all (before ++ after) = applyAll context all before >>= (applyAll context · after) := by
  induction before generalizing all with
  | nil => rfl
  | cons rule rules ih =>
    cases rule with
    | scalar _ | list _ | handle _ => rfl
    | object rule => rw [List.cons_append, applyAll_object, applyAll_object, ih]

variable (run : applyAll context all rules = .ok later)

include run

theorem applyAll_distinct (start : all.scores.Distinct) : later.scores.Distinct := by
  refine applyAll_keeps (·.scores.Distinct) run (fun rule _ all more applied distinct => ?_) start
  cases applied with
  | passed => exact distinct
  | scored _ score => exact distinct.insert _ score
  | summed => exact distinct

theorem applyAll_rollups_distinct (start : all.rollups.Distinct) : later.rollups.Distinct := by
  refine applyAll_keeps (·.rollups.Distinct) run (fun rule _ all more applied distinct => ?_) start
  cases applied with
  | passed => exact distinct
  | scored => exact distinct
  | @summed _ rollup => exact distinct.insert _ rollup

/-- Only the rules that score a field change what is known of it. -/
theorem find?_applyAll {key : Scalar} (apart : ∀ name ∈ scoredNames rules, name.coincides key = false) :
    Keyed.find? later.scores key = Keyed.find? all.scores key := by
  refine applyAll_keeps (fun more => Keyed.find? more.scores key = Keyed.find? all.scores key) run
    (fun rule member all more applied same => ?_) rfl
  cases applied with
  | passed => exact same
  | scored name score =>
    rw [← same, Keyed.find?_insert, apart _ (mem_scoredNames member name)]
    rfl
  | summed => exact same

/-- What no rule sums up there is no sum of. -/
theorem absent_applyAll {key : Scalar} (apart : ∀ name ∈ rollupNames rules, name.coincides key = false)
    (absent : Keyed.find? all.rollups key = none) : Keyed.find? later.rollups key = none := by
  refine applyAll_keeps (fun more => Keyed.find? more.rollups key = none) run
    (fun rule member all more applied absent => ?_) absent
  cases applied with
  | passed => exact absent
  | scored => exact absent
  | summed name =>
    rw [Keyed.find?_insert, apart _ (mem_rollupNames member name)]
    exact absent

/-- A sum stays what it is as long as there is no other rule of its name. -/
theorem mem_applyAll {sum : Scalar × Scoring.Rollup} (apart : ∀ name ∈ rollupNames rules, sum.1.coincides name = false)
    (inside : sum ∈ all.rollups) : sum ∈ later.rollups := by
  refine applyAll_keeps (fun more => sum ∈ more.rollups) run (fun rule member all more applied inside => ?_) inside
  cases applied with
  | passed => exact inside
  | scored => exact inside
  | summed name => exact Keyed.mem_insert_of_apart inside (apart _ (mem_rollupNames member name))

end Runs

/-- Of rules with names of their own, one that sums up puts the sum of the scores so far among the sums, to stay. The
rules after it change what it looked for only where they score a field that it sums. -/
theorem applyAll_sums {context : Context} {scores : Keyed Scoring.Score} {all : FormScores} {before after : List Value}
    {rule : Fields} {key : Scalar} (name : rollupName? rule = some key)
    (apart : (rollupNames (before ++ .object rule :: after)).Pairwise (·.coincides · = false))
    (run : applyAll context { scores } (before ++ .object rule :: after) = .ok all) :
    ∃ sofar, applyAll context { scores } before = .ok sofar ∧
      ∀ rollup, Scoring.Rollup.ofScores sofar.scores rule = .ok rollup → (key, rollup) ∈ all.rollups ∧
        ((∀ scored ∈ scoredNames after, ∀ field, Scoring.Rollup.Reads rule field → scored.coincides field = false) →
          Scoring.Rollup.ofScores all.scores rule = .ok rollup) := by
  rw [rollupNames_append before after name] at apart
  obtain ⟨_, later, earlier⟩ := List.pairwise_append.mp apart
  rw [applyAll_append] at run
  obtain ⟨sofar, first, rest⟩ := Fault.of_bind_ok run
  refine ⟨sofar, first, fun rollup sum => ?_⟩
  rw [applyAll_object, apply_of_rollup context name sum] at rest
  have absent : Keyed.find? sofar.rollups key = none :=
    absent_applyAll first (fun other member => earlier other member key List.mem_cons_self) rfl
  have inside : (key, rollup) ∈ Keyed.insert sofar.rollups key rollup := by
    rw [Keyed.insert_of_absent absent]
    exact List.mem_append_right _ List.mem_cons_self
  refine ⟨mem_applyAll rest (List.pairwise_cons.mp later).1 inside, fun untouched => ?_⟩
  rw [← sum]
  refine Scoring.ofScores_congr fun field reads => ?_
  exact find?_applyAll rest fun scored member => untouched scored member field reads

section Results

variable {all : FormScores} {report : Report} {key : Scalar} (plain : report.computed = [])
  (scores : all.scores.Distinct) (rollups : all.rollups.Distinct)

include plain rollups

theorem computed_addTo : (all.addTo report).computed =
    Keyed.merge (Keyed.mapValues Computed.rollup all.rollups) (Keyed.mapValues Computed.score all.scores) := by
  have first := Keyed.merge_of_distinct (show Keyed.Distinct ([] ++ _) from rollups.mapValues Computed.rollup)
  rw [addTo_eq, plain]
  exact congrArg (Keyed.merge · _) first

theorem mem_addTo {rollup : Scoring.Rollup} (inside : (key, rollup) ∈ all.rollups)
    (absent : Keyed.find? all.scores key = none) : (key, Computed.rollup rollup) ∈ (all.addTo report).computed := by
  rw [computed_addTo plain rollups]
  refine Keyed.mem_merge_of_absent (List.mem_map.mpr ⟨_, inside, rfl⟩) ?_
  rw [Keyed.find?_mapValues, absent]
  rfl

include scores

theorem find?_addTo_of_score {score : Scoring.Score} (scored : Keyed.find? all.scores key = some score) :
    Keyed.find? (all.addTo report).computed key = some (.score score) := by
  rw [computed_addTo plain rollups, Keyed.merge_eq_joinAll, Keyed.find?_joinAll _ (scores.mapValues _),
    Keyed.find?_mapValues Computed.score, scored]
  cases Keyed.find? (Keyed.mapValues Computed.rollup all.rollups) key <;> rfl

end Results

end FormScores

namespace Pass

section Passes

variable {σ : Type} {backend : Backend σ} {context : Context}

/-- Items leave each field with one score. -/
theorem checkItems_distinct (parent : Value) (report : Report) (items : List Item) :
    Leads (·.scores.Distinct) (checkItems backend context parent report items) fun _ later => later.scores.Distinct := by
  intro progress start result later run
  -- a run is paired with itself, the scores of the two being the same and distinct
  have paired : Paired (Twins Eq fun scores others => scores = others ∧ scores.Distinct)
      (checkItems backend context parent report items) (checkItems backend context parent report items) := by
    refine checkItems_paired rfl items parent report fun _ _ _ _ _ subject rule poses => ⟨?_, ?_⟩
    · rintro _ state _ rfl
      rw [← poses.inside]
      exact ⟨rfl, rfl⟩
    · rintro _ key _ score scores _ ⟨rfl, distinct⟩
      exact ⟨rfl, distinct.insert key score⟩
  obtain ⟨_, _, _, broken, _⟩ | ⟨_, _, _, ended, _, twins⟩ := paired progress progress ⟨rfl, ⟨rfl, start⟩, rfl⟩
  · rw [run] at broken
    cases broken
  · rw [run] at ended
    cases ended
    exact twins.scores.2

/-- The sum of a rule, in the results of a form whose rules sum up under names of their own, is that of the scores so
far. A score of a field of the same name stands in its place. So the sum of all scores of the form is there just if no
field has that name and the scores after the rule do not change the sum, as they do not if it sums none of them. -/
theorem checkForm_rollups {state : σ} {report : Report} {last : Progress σ}
    (run : (checkForm backend context).run.run { backend := state } = (.ok report, last)) :
    ∃ form rules all, context.form.asObject = .ok form ∧ listIn form "computedRules" = .ok rules ∧
      FormScores.applyAll context { scores := last.scores } rules = .ok all ∧
      ∀ before rule after key, rules = before ++ .object rule :: after → FormScores.rollupName? rule = some key →
        (FormScores.rollupNames rules).Pairwise (·.coincides · = false) →
        ∃ sofar, FormScores.applyAll context { scores := last.scores } before = .ok sofar ∧
          ∀ rollup, Scoring.Rollup.ofScores sofar.scores rule = .ok rollup →
            (Keyed.find? all.scores key = none → (key, .rollup rollup) ∈ report.computed) ∧
            (∀ score, Keyed.find? all.scores key = some score →
              Keyed.find? report.computed key = some (.score score)) ∧
            ((∀ scored ∈ FormScores.scoredNames after, ∀ field, Scoring.Rollup.Reads rule field →
                scored.coincides field = false) → Scoring.Rollup.ofScores all.scores rule = .ok rollup) ∧
            ((∃ whole, Scoring.Rollup.ofScores all.scores rule = .ok whole ∧
                Keyed.find? report.computed key = some (.rollup whole)) ↔
              Keyed.find? all.scores key = none ∧ Scoring.Rollup.ofScores all.scores rule = .ok rollup) := by
  have single := checkForm_computed backend context _ trivial _ _ run
  obtain ⟨form, items, gathered, rules, all, known, listed, ended, scoring, applied, rfl⟩ := checkForm_ok run
  -- items come to no results of their own, so these are the sums, with the scores put over them
  have plain : gathered.computed = [] :=
    checkItems_gathers (gathers_uncomputed _) (.text "") [] Report.counting _ _ rfl gathered last ended
  have scores : all.scores.Distinct := FormScores.applyAll_distinct applied
    (checkItems_distinct _ _ _ { backend := state } .nil gathered last ended)
  have rollups : all.rollups.Distinct := FormScores.applyAll_rollups_distinct applied .nil
  refine ⟨form, rules, all, known, scoring, applied, ?_⟩
  rintro before rule after key rfl name apart
  obtain ⟨sofar, first, sums⟩ := FormScores.applyAll_sums name apart applied
  refine ⟨sofar, first, fun rollup sum => ?_⟩
  obtain ⟨inside, same⟩ := sums rollup sum
  have shown := FormScores.mem_addTo plain rollups inside
  have hidden (score : Scoring.Score) (scored : Keyed.find? all.scores key = some score) :=
    FormScores.find?_addTo_of_score plain scores rollups scored
  refine ⟨shown, hidden, same, ?_, ?_⟩
  · rintro ⟨whole, sum', found⟩
    cases scored : Keyed.find? all.scores key with
    | some score =>
      rw [hidden score scored] at found
      cases found
    | none =>
      rw [single.find?_of_mem (shown scored) (Scalar.coincides_self key)] at found
      cases found
      exact ⟨rfl, sum'⟩
  · rintro ⟨absent, sum'⟩
    exact ⟨rollup, sum', single.find?_of_mem (shown absent) (Scalar.coincides_self key)⟩

end Passes

namespace Totals

/-- A rule that scores the answer to a question. -/
def scoring : Value := .ofFields [("type", .text "field"), ("fieldName", .text "question"), ("correctAnswer", .int 1)]

/-- A rule that sums up the score of the question. -/
def total (name : String) : Fields :=
  [(.text "type", .text "aggregate"), (.text "name", .text name), (.text "inputFields", .list [.text "question"])]

/-- The question answered, in a form without items. -/
def context (rules : List Value) : Context := { Context.ofData (.ofFields [("question", .int 1)]) with
  form := .ofFields [("computedRules", .list rules)] }

def backend : Backend Unit := fun _ _ _ state => (.ok .pass, state)

def run (rules : List Value) : Except Fault Report × Progress Unit :=
  (checkForm backend (context rules)).run.run { backend := () }

/-- All scores of the form. -/
def scored (rules : List Value) : Except Fault FormScores :=
  FormScores.applyAll (context rules) { scores := (run rules).2.scores } rules

/-- How many scores are in the sum under a name in the results, if there is one. -/
def shown? (rules : List Value) (name : String) : Option Nat := do
  match ← Keyed.find? (← (run rules).1.toOption).computed (.text name) with
  | .rollup rollup => some rollup.breakdown.length
  | .score _ | .plain _ => none

/-- How many of all scores a rule sums up. -/
def summed? (rules : List Value) (rule : Fields) : Option Nat := do
  let rollup ← (Scoring.Rollup.ofScores (← (scored rules).toOption).scores rule).toOption
  return rollup.breakdown.length

end Totals

open Totals in
theorem checkForm_rollups_total :
    let rules := [scoring, .object (total "total")]
    ∃ report all rollup, (run rules).1 = .ok report ∧ scored rules = .ok all ∧
      Scoring.Rollup.ofScores all.scores (total "total") = .ok rollup ∧
      (.text "total", .rollup rollup) ∈ report.computed := by
  intro rules
  have completed : (run rules).1.toOption.isSome = true := by decide +kernel
  have absent : (scored rules).toOption.all (fun all => (Keyed.find? all.scores (.text "total")).isNone) = true := by
    decide +kernel
  have summed : ((FormScores.applyAll (context rules) { scores := (run rules).2.scores } [scoring]).toOption.bind
      fun sofar => (Scoring.Rollup.ofScores sofar.scores (total "total")).toOption).isSome = true := by
    decide +kernel
  rcases ended : run rules with ⟨_ | report, last⟩
  · rw [ended] at completed
    cases completed
  · obtain ⟨form, _, all, known, listed, applied, sums⟩ := checkForm_rollups ended
    cases known
    cases listed
    have all' : scored rules = .ok all := by rw [scored, ended]; exact applied
    have apart : (FormScores.rollupNames rules).Pairwise (·.coincides · = false) := List.pairwise_singleton _ _
    obtain ⟨sofar, first, holds⟩ := sums [scoring] (total "total") [] (.text "total") rfl rfl apart
    rw [ended, first] at summed
    rw [all'] at absent
    cases sum : Scoring.Rollup.ofScores sofar.scores (total "total") with
    | error fault => simp [Except.toOption, sum] at summed
    | ok rollup =>
      obtain ⟨shown, _, whole, _⟩ := holds rollup sum
      have unscored : Keyed.find? all.scores (.text "total") = none := by simpa [Except.toOption] using absent
      exact ⟨report, all, rollup, rfl, all', whole (List.forall_mem_nil _), shown unscored⟩

open Totals in
/-- A sum before the score that it needs does without it; under the name of a field it is replaced by the score. -/
theorem rollup_before_score :
    let early := [.object (total "total"), scoring]
    let clashing := [scoring, .object (total "question")]
    ((FormScores.rollupNames early).Pairwise (·.coincides · = false) ∧
      shown? early "total" = some 0 ∧ summed? early (total "total") = some 1) ∧
    (FormScores.rollupNames clashing).Pairwise (·.coincides · = false) ∧
      shown? clashing "question" = none ∧ summed? clashing (total "question") = some 1 := by
  decide +kernel

end Pass

end FormRules

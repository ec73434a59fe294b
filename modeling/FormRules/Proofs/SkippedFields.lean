import FormRules.Proofs.FieldReports
import FormRules.Proofs.ReportMerging
import FormRules.Validator

/-! Several fields may have one path. What is said of the path is what is said of the first of them, so a path is said
to be skipped, with errors or without, if the first of its fields was, whatever became of the others. -/

namespace FormRules

namespace Standing

def isSkip : Standing → Bool
  | .skipped _ => true
  | .judged => false

def reason : Standing → Value
  | .skipped reason => .text reason
  | .judged => .null

end Standing

/-- What is said of a path of which some fields have become something. -/
inductive Outline : List Standing → Option FieldOutcome → Prop
  | absent : Outline [] none
  | present {first : Standing} {rest : List Standing} {outcome : FieldOutcome}
    (skipped : outcome.skipped = .bool first.isSkip) (reason : outcome.reason = first.reason)
    (clean : .judged ∉ first :: rest → outcome.valid = .bool true ∧ outcome.errors = []) :
    Outline (first :: rest) (some outcome)

theorem Outline.merge {standings more : List Standing} {outcome? later? : Option FieldOutcome}
    (first : Outline standings outcome?) (second : Outline more later?) :
    Outline (standings ++ more) (Option.merge Report.mergeOutcome outcome? later?) := by
  cases first with
  | absent =>
    cases second with
    | absent => exact .absent
    | present skipped reason clean => exact .present skipped reason clean
  | @present first rest outcome skipped reason clean =>
    cases second with
    | absent =>
      rw [List.append_nil]
      exact .present skipped reason clean
    | @present first' rest' later skipped' reason' clean' =>
      refine .present skipped reason fun none => ?_
      have none : .judged ∉ (first :: rest) ++ (first' :: rest') := none
      rw [List.mem_append, not_or] at none
      obtain ⟨valid, errors⟩ := clean none.1
      obtain ⟨valid', errors'⟩ := clean' none.2
      rw [Report.mergeOutcome, valid, valid', errors, errors']
      exact ⟨rfl, rfl⟩

namespace Form

/-- What becomes of the fields at a path, in the order of the form. -/
def standingsAt (source : Source) (parts : List Item.Piece) (key : Scalar) : List Standing :=
  ((parts.filterMap (·.filing? source)).filter fun (own, _) => own.coincides key).map (·.2)

theorem standingsAt_append (source : Source) (parts more : List Item.Piece) (key : Scalar) :
    standingsAt source (parts ++ more) key = standingsAt source parts key ++ standingsAt source more key := by
  unfold standingsAt
  rw [List.filterMap_append, List.filter_append, List.map_append]

theorem standingsAt_of_filing {source : Source} {piece : Item.Piece} {own : Scalar} {standing : Standing}
    (place : piece.filing? source = some (own, standing)) (key : Scalar) :
    standingsAt source [piece] key = if own.coincides key then [standing] else [] := by
  rw [standingsAt, List.filterMap_cons, place]
  by_cases here : own.coincides key = true <;> simp [here]

/-- A report in which every path is what its fields make of it. -/
structure Outlined (source : Source) (parts : List Item.Piece) (report : Report) : Prop where
  distinct : report.fields.Distinct
  outline : ∀ key, Outline (standingsAt source parts key) (Keyed.find? report.fields key)

variable {source : Source} {parts more : List Item.Piece} {report later : Report}

theorem Outlined.merge (first : Outlined source parts report) (second : Outlined source more later) :
    Outlined source (parts ++ more) (report.merge later) where
  distinct := by
    rw [Report.merge, Report.mergeFields_eq_joinAll]
    exact first.distinct.joinAll _ _
  outline := by
    intro key
    rw [standingsAt_append, Report.merge, Report.find?_mergeFields second.distinct]
    exact (first.outline key).merge (second.outline key)

theorem outlined_single {piece : Item.Piece} {key : Scalar} {standing : Standing} {outcome : FieldOutcome}
    (place : piece.filing? source = some (key, standing)) (fields : report.fields = [(key, outcome)])
    (alone : Outline [standing] (some outcome)) : Outlined source [piece] report where
  distinct := fields ▸ List.pairwise_singleton _ _
  outline := by
    intro other
    rw [standingsAt_of_filing place, fields, Keyed.find?_cons]
    split
    · exact alone
    · exact .absent

theorem outlined_filed {piece : Item.Piece} (filed : piece.Filed source report) : Outlined source [piece] report := by
  cases filed with
  | silent nowhere =>
    refine ⟨.nil, fun key => ?_⟩
    rw [standingsAt, List.filterMap_cons, nowhere]
    exact .absent
  | skipped key reason rules place => exact outlined_single place rfl (.present rfl rfl fun _ => ⟨rfl, rfl⟩)
  | judged name errors told place added =>
    have fields := added.fields
    cases errors with
    | nil =>
      have valid : (told.clearing name).fields = [(.text name, {})] := by
        rw [Report.clearing, fields]
        rfl
      exact outlined_single place valid (.present rfl rfl fun none => absurd List.mem_cons_self none)
    | cons error errors =>
      have all := fields.trans (Report.foldl_addToField [] name (List.cons_ne_nil error errors))
      exact outlined_single place all (.present rfl rfl fun none => absurd List.mem_cons_self none)

theorem gathers_outlined (source : Source) : Pass.Gathers source (Outlined source) where
  empty := ⟨.nil, fun _ => .absent⟩
  field := outlined_filed
  merge := Outlined.merge

end Form

namespace Pass

variable {σ : Type}

/-- A form says of a path what became of the first of its fields. So a path that is said to be skipped is valid, without
errors, and with no field that was judged, just if its first field was judged or all of them were skipped. -/
theorem checkForm_skips {backend : Backend σ} {context : Context} {state : σ} {report : Report} {later : Progress σ}
    (run : (checkForm backend context).run.run { backend := state } = (.ok report, later)) :
    ∃ parts, Form.pieces context.form = .ok parts ∧ ∀ key,
      let standings := Form.standingsAt context.source parts key
      (Keyed.find? report.fields key = none ↔ standings = []) ∧
      ∀ outcome, Keyed.find? report.fields key = some outcome → ∃ first rest, standings = first :: rest ∧
        outcome.skipped = .bool first.isSkip ∧ outcome.reason = first.reason ∧
        ((outcome.skipped = .bool true → outcome.valid = .bool true ∧ outcome.errors = [] ∧ .judged ∉ standings) ↔
          first = .judged ∨ .judged ∉ standings) := by
  obtain ⟨parts, gathered, known, outlined, all, rfl⟩ := checkForm_gathers (Form.gathers_outlined _) _ trivial _ _ run
  refine ⟨parts, known, fun key => ?_⟩
  have outline := outlined.outline key
  rw [FormScores.addTo_eq]
  generalize Form.standingsAt context.source parts key = standings at outline ⊢
  generalize Keyed.find? gathered.fields key = outcome? at outline ⊢
  cases outline with
  | absent => exact ⟨⟨fun _ => rfl, fun _ => rfl⟩, nofun⟩
  | @present first rest outcome skipped reason clean =>
    refine ⟨⟨nofun, nofun⟩, fun _ same => ?_⟩
    cases same
    refine ⟨first, rest, rfl, skipped, reason, ?_⟩
    rw [skipped]
    cases first with
    | judged => exact ⟨fun _ => .inl rfl, fun _ => nofun⟩
    | skipped why =>
      constructor
      · intro claimed
        exact .inr (claimed rfl).2.2
      · rintro (judged | none) _
        · cases judged
        · exact ⟨(clean none).1, (clean none).2, none⟩

namespace Variants

def field (mode type : String) : Value := .ofFields [("name", .text "x"),
  ("visibleIf", .ofFields [("mode", .text mode)]), ("validationRules", .list [.ofFields [("type", .text type)]])]

def context : Context := { Context.ofData (.ofFields [("mode", .text "b"), ("x", .text "bad")]) with
  form := .ofFields [("items", .list [field "a" "numeric", field "b" "email"])] }

def backend : Backend Rule.Session := Rule.check (Validator.means {} [] .offline)

end Variants

open Variants in
theorem checkForm_skips_variants :
    let run := (checkForm backend context).run.run { backend := {} }
    ∃ report parts, run.1 = .ok report ∧ Form.pieces context.form = .ok parts ∧
      ∀ outcome, Keyed.find? report.fields (.text "x") = some outcome → ∃ first rest,
        Form.standingsAt context.source parts (.text "x") = first :: rest ∧
          outcome.skipped = .bool first.isSkip ∧ outcome.reason = first.reason := by
  intro run
  have completed : run.1.toOption.isSome = true := by decide +kernel
  rcases ended : run with ⟨_ | report, later⟩
  · rw [ended] at completed
    cases completed
  · obtain ⟨parts, known, all⟩ := checkForm_skips ended
    refine ⟨report, parts, rfl, known, fun outcome found => ?_⟩
    obtain ⟨first, rest, standings, skipped, reason, _⟩ := (all _).2 outcome found
    exact ⟨first, rest, standings, skipped, reason⟩

open Variants in
/-- Of two fields with one path the first is hidden and the second has an error: the path is said to be skipped. -/
theorem skipped_with_error :
    let report := ((checkForm backend context).run.run { backend := {} }).1
    (report.toOption.bind fun report => Keyed.find? report.fields (.text "x")).map
        (fun outcome => (outcome.skipped.truthy, outcome.valid.truthy, outcome.errors.length)) = some (true, false, 1) ∧
      ((Form.pieces context.form).map fun parts => Form.standingsAt context.source parts (.text "x")).toOption =
        some [.skipped "Field is not visible", .judged] := by
  decide +kernel

end Pass

end FormRules

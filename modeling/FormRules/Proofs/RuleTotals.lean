import FormRules.Proofs.SkippedFields

/-! How many rules a form counts. A group counts as one where the field that it belongs to is checked, and for the rules
inside of it where the field is skipped. So the total depends on the data as far as fields with groups are skipped. -/

namespace FormRules

namespace Item.Piece

/-- Whether a field is skipped. -/
def isSkipped (source : Source) (piece : Piece) : Bool := (piece.filing? source).any (·.2.isSkip)

/-- How many more rules a field counts for because it is skipped. -/
def surplus (source : Source) (piece : Piece) : Int :=
  if piece.isSkipped source then RuleNode.surplusOfAll piece.nodes else 0

theorem surplus_of_plain {piece : Piece} (plain : ∀ node ∈ piece.nodes, node.surplus = 0) (source : Source) :
    piece.surplus source = 0 := by
  rw [surplus, RuleNode.surplusOfAll_of_plain plain, ite_self]

theorem Filed.total {source : Source} {piece : Piece} {report : Report} (filed : piece.Filed source report) :
    report.tally?.map (·.total) = some (RuleNode.metOfAll piece.nodes + piece.surplus source) := by
  cases filed with
  | silent nowhere empty =>
    rw [surplus, isSkipped, nowhere, empty]
    rfl
  | skipped key reason rules place counted =>
    have skip : piece.isSkipped source = true := by rw [isSkipped, place]; rfl
    rw [surplus, skip, if_pos rfl, ← counted]
    exact congrArg some (Int.zero_add _)
  | judged name errors told place added counted =>
    have shown : piece.isSkipped source = false := by rw [isSkipped, place]; rfl
    rw [surplus, shown, if_neg Bool.false_ne_true, Int.add_zero]
    split <;> exact counted

end Item.Piece

namespace Form

/-- How many rules and groups the fields of a form have. -/
def met : List Item.Piece → Int
  | [] => 0
  | piece :: parts => RuleNode.metOfAll piece.nodes + met parts

/-- How many more rules a form counts because of the fields that are skipped. -/
def surplus (source : Source) : List Item.Piece → Int
  | [] => 0
  | piece :: parts => piece.surplus source + surplus source parts

theorem total_append (source : Source) (parts more : List Item.Piece) : met (parts ++ more) +
    surplus source (parts ++ more) = (met parts + surplus source parts) + (met more + surplus source more) := by
  induction parts with
  | nil => exact (Int.zero_add _).symm
  | cons piece parts ih =>
    simp only [List.cons_append, met, surplus]
    omega

/-- Fields that are skipped in one case only make no difference if they have no groups but of one rule. -/
theorem surplus_congr {first second : Source} {parts : List Item.Piece} (alike : ∀ piece ∈ parts,
      piece.isSkipped first = piece.isSkipped second ∨ ∀ node ∈ piece.nodes, node.surplus = 0) :
    surplus first parts = surplus second parts := by
  induction parts with
  | nil => rfl
  | cons piece parts ih =>
    obtain ⟨here, others⟩ := List.forall_mem_cons.mp alike
    have own : piece.surplus first = piece.surplus second := by
      rcases here with same | plain
      · rw [Item.Piece.surplus, Item.Piece.surplus, same]
      · rw [Item.Piece.surplus_of_plain plain, Item.Piece.surplus_of_plain plain]
    rw [surplus, surplus, own, ih others]

end Form

namespace Pass

variable {σ : Type}

theorem gathers_total (source : Source) : Gathers source fun parts report =>
    report.tally?.map (·.total) = some (Form.met parts + Form.surplus source parts) where
  empty := rfl
  field := by
    intro piece report filed
    simpa [Form.met, Form.surplus] using filed.total
  merge := by
    intro parts more report later first second
    obtain ⟨tally, counted, total⟩ := Option.map_eq_some_iff.mp first
    obtain ⟨tally', counted', total'⟩ := Option.map_eq_some_iff.mp second
    have all : (tally.add tally').total = Form.met (parts ++ more) + Form.surplus source (parts ++ more) := by
      rw [Form.total_append, ← total, ← total']
      rfl
    rw [Report.merge, counted, counted', ← all]
    rfl

theorem checkForm_total {backend : Backend σ} {context : Context} {state : σ} {report : Report} {last : Progress σ}
    (run : (checkForm backend context).run.run { backend := state } = (.ok report, last)) :
    ∃ parts, Form.pieces context.form = .ok parts ∧
      report.tally?.map (·.total) = some (Form.met parts + Form.surplus context.source parts) := by
  obtain ⟨parts, gathered, known, total, all, rfl⟩ := checkForm_gathers (gathers_total _) _ trivial _ _ run
  refine ⟨parts, known, ?_⟩
  rw [FormScores.addTo_eq]
  exact total

/-- Whatever the data and the backend, a form counts each rule and each group of its fields once, but where a field is
skipped, the rules inside of a group in place of the group. So it counts the same for other data if the fields that are
skipped for one of them only have no groups but of one rule. -/
theorem checkForm_totals {backend backend' : Backend σ} {context other : Context} {state state' : σ}
    {report report' : Report} {last last' : Progress σ} (same : other.form = context.form)
    (run : (checkForm backend context).run.run { backend := state } = (.ok report, last))
    (run' : (checkForm backend' other).run.run { backend := state' } = (.ok report', last')) :
    ∃ parts, Form.pieces context.form = .ok parts ∧
      report.tally?.map (·.total) = some (Form.met parts + Form.surplus context.source parts) ∧
      report'.tally?.map (·.total) = some (Form.met parts + Form.surplus other.source parts) ∧
      ((∀ piece ∈ parts, piece.isSkipped context.source = piece.isSkipped other.source ∨
          ∀ node ∈ piece.nodes, node.surplus = 0) →
        report.tally?.map (·.total) = report'.tally?.map (·.total)) := by
  obtain ⟨parts, known, total⟩ := checkForm_total run
  obtain ⟨parts', known', total'⟩ := checkForm_total run'
  rw [same, known] at known'
  cases known'
  exact ⟨parts, known, total, total', fun alike => by rw [total, total', Form.surplus_congr alike]⟩

namespace Hidden

def rule (type : String) : Value := .ofFields [("type", .text type)]

def either : Value := .ofFields [("or", .list [rule "email", rule "numeric"])]

/-- A field that is shown in one mode only. -/
def field (name : String) (rules : List Value) : Value :=
  .ofFields [("name", .text name), ("visibleIf", .ofFields [("mode", .text "long")]), ("validationRules", .list rules)]

def context (items : List Value) (mode : String) : Context :=
  { Context.ofData (.ofFields [("mode", .text mode)]) with form := .ofFields [("items", .list items)] }

def run (context : Context) : Except Fault Report × Progress Rule.Session :=
  (checkForm (Rule.check (Validator.means {} [] .offline)) context).run.run { backend := {} }

def total? (context : Context) : Option Int := (run context).1.toOption.bind fun report => report.tally?.map (·.total)

end Hidden

open Hidden in
/-- Of two fields the one without a group is shown in one mode only. -/
theorem checkForm_totals_note :
    let items := [field "note" [rule "email", rule "pattern"],
      .ofFields [("name", .text "contact"), ("validationRules", .list [either])]]
    ∃ report report', (run (context items "short")).1 = .ok report ∧ (run (context items "long")).1 = .ok report' ∧
      report.tally?.map (·.total) = some 3 ∧ report.tally?.map (·.total) = report'.tally?.map (·.total) := by
  intro items
  have short : total? (context items "short") = some 3 := by decide +kernel
  have long : (run (context items "long")).1.toOption.isSome = true := by decide +kernel
  have alike : (Form.pieces (context items "short").form).toOption.all (fun parts => decide (∀ piece ∈ parts,
      piece.isSkipped (context items "short").source = piece.isSkipped (context items "long").source ∨
        ∀ node ∈ piece.nodes, node.surplus = 0)) = true := by
    decide +kernel
  rcases ended : run (context items "short") with ⟨_ | report, last⟩
  · rw [total?, ended] at short
    cases short
  rcases ended' : run (context items "long") with ⟨_ | report', last'⟩
  · rw [ended'] at long
    cases long
  have same : (context items "long").form = (context items "short").form := rfl
  obtain ⟨parts, known, _, _, equal⟩ := checkForm_totals same ended ended'
  rw [known] at alike
  rw [total?, ended] at short
  exact ⟨report, report', rfl, rfl, short, equal (of_decide_eq_true alike)⟩

open Hidden in
/-- A field with a group of two rules counts for one rule where it is shown and for two where it is hidden. -/
theorem hidden_group_counts_more :
    total? (context [field "contact" [either]] "long") = some 1 ∧
      total? (context [field "contact" [either]] "short") = some 2 := by
  decide +kernel

end Pass

end FormRules

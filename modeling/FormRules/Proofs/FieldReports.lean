import FormRules.Proofs.MetRules
import FormRules.Proofs.RearrangedItems
import FormRules.Proofs.ToldErrors

/-! What a field adds to the report of a form: nothing, that it is skipped, or what is told of its rules, and how many
rules it counts for. The report of a form is made of what its fields add, in the order of the form, and of the scores. -/

namespace FormRules

/-- What becomes of a field. -/
inductive Standing where
  | skipped (reason : String)
  | judged
deriving DecidableEq

namespace Item.Piece

/-- What becomes of a field, if anything does: one that has no rules is not judged. -/
def standing? (source : Source) : Piece → Option Standing
  | .broken _ => none
  | .field fields _ =>
    match (FieldState.ofFields source fields false).skipReason? with
    | some reason => some (.skipped reason)
    | none => if (Fields.get fields "validationRules").truthy then some .judged else none

/-- What becomes of a field, under the key of its path. -/
def filing? (source : Source) (piece : Piece) : Option (Scalar × Standing) := do
  let path ← piece.path?
  let key ← path.asKey.toOption
  let standing ← piece.standing? source
  return (key, standing)

theorem path?_of_filing? {source : Source} {piece : Piece} {key : Scalar} {standing : Standing}
    (place : piece.filing? source = some (key, standing)) : ∃ path, piece.path? = some path ∧ path.asKey = .ok key := by
  obtain ⟨path, here, place⟩ := Option.bind_eq_some_iff.mp place
  obtain ⟨own, known, place⟩ := Option.bind_eq_some_iff.mp place
  obtain ⟨_, _, place⟩ := Option.bind_eq_some_iff.mp place
  cases place
  cases found : path.asKey <;> rw [found] at known <;> cases known
  exact ⟨path, here, found⟩

/-- The rules and groups of a field. -/
def nodes (piece : Piece) : List RuleNode :=
  match piece, piece.path? with
  | .field fields _, some _ =>
    (RuleNode.ofRules ((Fields.get fields "validationRules").orElse (.list []))).toOption.getD []
  | _, _ => []

theorem nodes_of_path?_eq_none {piece : Piece} (nowhere : piece.path? = none) : piece.nodes = [] := by
  unfold nodes
  rw [nowhere]
  cases piece <;> rfl

theorem nodes_field {fields : Fields} {parent path : Value} {nodes : List RuleNode}
    (place : (Piece.field fields parent).path? = some path)
    (listed : RuleNode.ofRules ((Fields.get fields "validationRules").orElse (.list [])) = .ok nodes) :
    (Piece.field fields parent).nodes = nodes := by
  simp only [Piece.nodes, place, listed, Except.toOption, Option.getD_some]

/-- The report of a field on its own. -/
inductive Filed (source : Source) (piece : Piece) : Report → Prop
  | silent (nowhere : piece.filing? source = none) (empty : piece.nodes = []) : Filed source piece Report.counting
  | skipped (key : Scalar) (reason : String) (rules : Nat) (place : piece.filing? source = some (key, .skipped reason))
    (counted : (rules : Int) = RuleNode.metOfAll piece.nodes + RuleNode.surplusOfAll piece.nodes) :
    Filed source piece
      { Report.counting with
        fields := [(key, { skipped := .bool true, reason := .text reason })]
        tally? := some (({} : Tally).skipAll rules) }
  | judged (name : String) (errors : List FieldError) (told : Report)
    (place : piece.filing? source = some (.text name, .judged)) (added : Report.counting.Told name 0 errors told)
    (counted : told.tally?.map (·.total) = some (RuleNode.metOfAll piece.nodes)) :
    Filed source piece (if errors.isEmpty then told.clearing name else told)

end Item.Piece

namespace Form

theorem pieces_of_broken {form : Value} {fault : Fault} (known : form.asObject = .error fault) :
    pieces form = .error fault := by
  unfold pieces Dependency.itemsOf Value.field
  rw [known]
  rfl

theorem pieces_of_object {form : Value} {fields : Fields} (known : form.asObject = .ok fields) :
    pieces form = (Pass.listIn fields "items").map fun items => Item.piecesOf (.text "") (Item.ofList items) := by
  obtain rfl := Value.eq_of_asObject known
  unfold pieces Pass.listIn
  rw [Dependency.itemsOf_object]
  cases ((Fields.get fields "items").orElse (.list [])).items <;> rfl

end Form

namespace FormScores

theorem addComputed_fold {α : Type} (wrap : α → Computed) (entries : Keyed α) (report : Report) :
    entries.foldl (fun report (name, entry) => report.addComputed name (wrap entry)) report =
      { report with computed := Keyed.merge report.computed (entries.map fun (name, entry) => (name, wrap entry)) } := by
  induction entries generalizing report with
  | nil => rfl
  | cons entry rest ih => exact ih _

theorem addTo_eq (all : FormScores) (report : Report) : all.addTo report =
    { report with
      computed := Keyed.merge
        (Keyed.merge report.computed (all.rollups.map fun (name, rollup) => (name, .rollup rollup)))
        (all.scores.map fun (name, score) => (name, .score score)) } := by
  unfold addTo
  rw [addComputed_fold, addComputed_fold]

end FormScores

namespace RuleNode

theorem isEmpty_ofList (items : List Value) : (ofList items).isEmpty = items.isEmpty := by cases items <;> rfl

/-- There are no rules in what does not count as present, and some in what does. -/
theorem isEmpty_of_ofRules {rules : Value} {nodes : List RuleNode} (listed : ofRules (rules.orElse (.list [])) = .ok nodes) :
    nodes.isEmpty = !rules.truthy := by
  unfold Value.orElse at listed
  split at listed
  next some =>
    obtain ⟨items, held, listed⟩ := Fault.of_bind_ok listed
    cases listed
    rw [isEmpty_ofList, some]
    unfold Value.items at held
    split at held <;> cases held <;> simp_all [Value.truthy, Keyed.keys]
  next none =>
    cases listed
    rw [Bool.eq_false_iff.mpr none]
    rfl

end RuleNode

namespace Pass

variable {σ : Type} (backend : Backend σ)

theorem skipField_files {source : Source} {piece : Item.Piece} {path : Value} (place : piece.path? = some path)
    {reason : String} (skipped : piece.standing? source = some (.skipped reason)) {rules : Nat}
    (counted : (rules : Int) = RuleNode.metOfAll piece.nodes + RuleNode.surplusOfAll piece.nodes) :
    Leads (σ := σ) (·.report = Report.counting) (skipField path reason rules) fun _ later => piece.Filed source later.report := by
  intro progress fresh _ later run
  obtain ⟨_, _, got, run⟩ := of_bind_ok run
  cases got
  obtain ⟨report, set, run⟩ := of_lift_bind_ok run
  obtain ⟨key, known, set⟩ := Fault.of_bind_ok set
  cases set
  cases run
  have filed : piece.filing? source = some (key, .skipped reason) := by
    simp [Item.Piece.filing?, place, known, skipped, Except.toOption]
  show piece.Filed source { progress.report with fields := _, tally? := _ }
  rw [fresh]
  exact .skipped key reason rules filed counted

theorem checkField_files {context : Context} {fields : Fields} {parent path : Value}
    (place : (Item.Piece.field fields parent).path? = some path) :
    Leads (·.report = Report.counting) (checkField backend context fields path) fun _ later =>
      (Item.Piece.field fields parent).Filed context.source later.report := by
  intro progress fresh _ later run
  obtain ⟨nodes, listed, run⟩ := of_lift_bind_ok run
  obtain ⟨asked, _, run⟩ := of_lift_bind_ok run
  have ruled := RuleNode.isEmpty_of_ofRules listed
  have held := Item.Piece.nodes_field place listed
  simp only at run
  split at run
  next reason hidden =>
    obtain ⟨leaves, taken, run⟩ := of_lift_bind_ok run
    rw [← held] at taken
    have standing : (Item.Piece.field fields parent).standing? context.source = some (.skipped reason) := by
      have same : (FieldState.ofFields context.source fields false).skipReason? = some reason := hidden
      simp only [Item.Piece.standing?, same]
    exact skipField_files place standing (RuleNode.leavesOfAll_length taken) progress fresh _ later run
  next shown =>
    have standing : (Item.Piece.field fields parent).standing? context.source =
        if nodes.isEmpty then none else some .judged := by
      have same : (FieldState.ofFields context.source fields false).skipReason? = none := shown
      rw [ruled]
      cases ruled : (Fields.get fields "validationRules").truthy <;> simp [Item.Piece.standing?, same, ruled]
    split at run
    next none =>
      cases run
      rw [fresh]
      refine .silent ?_ (held.trans (List.isEmpty_iff.mp none))
      simp [Item.Piece.filing?, standing, none]
    next some =>
      obtain ⟨subject, known, run⟩ := of_lift_bind_ok run
      obtain ⟨name, value, rfl, rfl⟩ := subjectOf_ok known
      obtain ⟨errors, told, added, same⟩ := checkAll_told backend rfl nodes run
      have met : HasMet (RuleNode.metOfAll nodes) later := by
        have first : HasMet 0 progress := by
          rw [HasMet, fresh]
          rfl
        have last := checkAll_meets backend _ nodes 0 progress first () later run
        rwa [Int.zero_add] at last
      rw [fresh] at added
      rw [HasMet, same, ← held] at met
      rw [same]
      refine .judged name errors told ?_ added ?_
      · simp [Item.Piece.filing?, place, standing, some, Value.asKey, Except.toOption]
      · cases errors <;> exact met

/-- Whether an item is checked in one way and not in another depends on the state of the field and on what is said under
these names. -/
theorem checkLeaf_of_said {σ : Type} (backend : Backend σ) (context : Context) {fields others : Fields}
    (state : ∀ asked, FieldState.ofFields context.source fields asked = FieldState.ofFields context.source others asked)
    (said : ∀ name ∈ ["type", "name", "dataField", "excludeFromPath"] ++ ["validationRules"],
      Fields.get fields name = Fields.get others name) (parent : Value) :
    checkLeaf backend context fields parent = checkLeaf backend context others parent := by
  obtain ⟨sort, name, path⟩ := Item.placed_congr fun name member => said name (List.mem_append_left _ member)
  have subject (path : Value) (isRequired : Bool) : subjectOf context path fields isRequired =
      subjectOf context path others isRequired := by
    unfold subjectOf fieldValue
    rw [said "type" (by decide)]
  unfold checkLeaf checkField
  simp only [sort, name, path, state, subject, said "validationRules" (by decide)]

/-- What an item holds beside what is said of it does not count unless it holds others. -/
theorem checkLeaf_congr {σ : Type} (backend : Backend σ) (context : Context) {fields others : Fields}
    (agree : Item.AgreeOutside fields others) (parent : Value) :
    checkLeaf backend context fields parent = checkLeaf backend context others parent := by
  refine checkLeaf_of_said backend context (fun asked => ?_) (agree.said (by decide)) parent
  unfold FieldState.ofFields
  rw [agree "visibleIf" (by decide), agree "disabledIf" (by decide), agree "requiredIf" (by decide)]

theorem checkLeaf_files (context : Context) (fields : Fields) (parent : Value) :
    Leads (·.report = Report.counting) (checkLeaf backend context fields parent) fun _ later =>
      (Item.Piece.field fields parent).Filed context.source later.report := by
  intro progress fresh _ later run
  obtain ⟨sort, known, run⟩ := of_lift_bind_ok run
  split at run
  next named =>
    rw [Bool.and_eq_true, beq_iff_eq] at named
    obtain ⟨path, place, run⟩ := of_lift_bind_ok run
    have here : (Item.Piece.field fields parent).path? = some path :=
      Item.Piece.path?_eq_some.mpr ⟨known.trans (congrArg _ named.1), named.2, place⟩
    exact checkField_files backend here progress fresh _ later run
  next unnamed =>
    cases run
    rw [fresh]
    have nowhere : (Item.Piece.field fields parent).path? = none := by
      refine Item.Piece.path?_eq_none fun ⟨data, named⟩ => unnamed ?_
      rw [known] at data
      cases data
      exact Bool.and_eq_true_iff.mpr ⟨rfl, named⟩
    refine .silent ?_ (Item.Piece.nodes_of_path?_eq_none nowhere)
    rw [Item.Piece.filing?, nowhere]
    rfl

/-- What holds of an empty report, of the report of each field, and of reports folded together, if it holds of them:
so it holds of the report of all parts of a form. -/
structure Gathers (source : Source) (property : List Item.Piece → Report → Prop) : Prop where
  empty : property [] Report.counting
  field : ∀ {piece report}, piece.Filed source report → property [piece] report
  merge : ∀ {parts more report later}, property parts report → property more later →
    property (parts ++ more) (report.merge later)

section Items

variable {backend} {context : Context} {property : List Item.Piece → Report → Prop}

mutual

theorem checkItem_gathers (gathers : Gathers context.source property) (parent : Value) : (item : Item) →
    Leads (fun _ => True) (checkItem backend context parent item) fun report _ => property (item.pieces parent) report
  | .stray _ => .throw _
  | .untyped _ fault => .throw fault
  | .leaf fields => by
    have filed := checkLeaf_files backend context (Keyed.erase fields (.text "items")) parent
    rw [checkLeaf_congr backend context (Item.agree_erase_items fields)] at filed
    exact ownReport_leads (filed.weaken (fun _ fresh => fresh) fun _ _ => gathers.field)
  | .container fields children => by
    intro progress _ report last run
    obtain ⟨path, known, run⟩ := of_lift_bind_ok run
    rw [Item.pieces, known]
    exact checkItems_gathers gathers path [] Report.counting children progress gathers.empty report last run

theorem checkItems_gathers (gathers : Gathers context.source property) (parent : Value) (parts : List Item.Piece)
    (report : Report) : (items : List Item) →
    Leads (fun _ => property parts report) (checkItems backend context parent report items)
      fun last _ => property (parts ++ Item.piecesOf parent items) last
  | [] => .pure fun _ kept => by rw [Item.piecesOf, List.append_nil]; exact kept
  | item :: items => by
    intro progress kept result last run
    obtain ⟨own, later, ended, run⟩ := of_bind_ok run
    have here := checkItem_gathers gathers parent item progress trivial own later ended
    rw [Item.piecesOf, ← List.append_assoc]
    exact checkItems_gathers gathers parent _ _ items later (gathers.merge kept here) result last run

end

/-- A pass over a form that ends without a fault has gone through its items, and then through the rules that score it as
a whole. -/
theorem checkForm_ok {progress last : Progress σ} {report : Report}
    (run : (checkForm backend context).run.run progress = (.ok report, last)) :
    ∃ form items gathered rules all, context.form.asObject = .ok form ∧ listIn form "items" = .ok items ∧
      (checkItems backend context (.text "") Report.counting (Item.ofList items)).run.run progress =
        (.ok gathered, last) ∧
      listIn form "computedRules" = .ok rules ∧
      FormScores.applyAll context { scores := last.scores } rules = .ok all ∧ report = all.addTo gathered := by
  obtain ⟨form, known, run⟩ := of_lift_bind_ok run
  obtain ⟨items, listed, run⟩ := of_lift_bind_ok run
  obtain ⟨gathered, later, ended, run⟩ := of_bind_ok run
  obtain ⟨rules, scoring, run⟩ := of_lift_bind_ok run
  obtain ⟨_, _, got, run⟩ := of_bind_ok run
  cases got
  obtain ⟨all, applied, run⟩ := of_lift_bind_ok run
  cases run
  exact ⟨form, items, gathered, rules, all, known, listed, ended, scoring, applied, rfl⟩

/-- The report of a form is what was gathered of its parts, with the scores. -/
theorem checkForm_gathers (gathers : Gathers context.source property) :
    Leads (fun _ => True) (checkForm backend context) fun report _ =>
      ∃ parts gathered, Form.pieces context.form = .ok parts ∧ property parts gathered ∧
        ∃ all : FormScores, report = all.addTo gathered := by
  intro progress _ report last run
  obtain ⟨form, items, gathered, _, all, known, listed, ended, _, _, rfl⟩ := checkForm_ok run
  have parts : Form.pieces context.form = .ok (Item.piecesOf (.text "") (Item.ofList items)) := by
    rw [Form.pieces_of_object known, listed]
    rfl
  have whole := checkItems_gathers gathers (.text "") [] Report.counting (Item.ofList items) progress gathers.empty
    gathered last ended
  exact ⟨_, gathered, parts, whole, all, rfl⟩

end Items

end Pass

end FormRules

import FormRules.Proofs.FieldFindings
import FormRules.Proofs.ScoreOrder

/-! The order of fields does not matter. Whatever checking the fields of a form comes to is put together from what is
found of each of them, and if no two have the same path it is the same, up to the order of what is listed, for a form
in which items stand in another order. -/

namespace FormRules

namespace Tally

def sum (tallies : List Tally) : Tally := tallies.foldr Tally.add {}

theorem sum_append (tallies more : List Tally) : sum (tallies ++ more) = (sum tallies).add (sum more) := by
  induction tallies with
  | nil => simp [sum, Tally.add]
  | cons tally tallies ih =>
    show tally.add (sum (tallies ++ more)) = (tally.add (sum tallies)).add (sum more)
    rw [ih, Tally.add_assoc]

theorem sum_perm {tallies others : List Tally} (perm : tallies.Perm others) : sum tallies = sum others := by
  induction perm with
  | nil => rfl
  | cons tally _ ih => exact congrArg tally.add ih
  | swap first second rest =>
    show second.add (first.add (sum rest)) = first.add (second.add (sum rest))
    rw [← Tally.add_assoc, ← Tally.add_assoc, Tally.add_comm second]
  | trans _ _ ih ih' => exact ih.trans ih'

end Tally

namespace Report

def outcomes (reports : List Report) : Keyed FieldOutcome := reports.flatMap (·.fields)

/-- One report of what several say. -/
def together (reports : List Report) : Report where
  valid := .bool (reports.flatMap (·.errors)).isEmpty
  errors := reports.flatMap (·.errors)
  fields := outcomes reports
  tally? := some (Tally.sum (reports.map fun report => report.tally?.getD {}))

theorem outcomes_append (reports more : List Report) : outcomes (reports ++ more) = outcomes reports ++ outcomes more :=
  List.flatMap_append

theorem distinct_of_append {reports more : List Report} (distinct : (outcomes (reports ++ more)).Distinct) :
    (outcomes reports).Distinct := by
  rw [outcomes_append] at distinct
  exact (List.pairwise_append.mp distinct).1

theorem distinct_append_right {reports more : List Report} (distinct : (outcomes (reports ++ more)).Distinct) :
    (outcomes more).Distinct := by
  rw [outcomes_append] at distinct
  exact (List.pairwise_append.mp distinct).2.1

/-- Reports about different fields are folded together as they are. -/
theorem together_merge {reports more : List Report} (distinct : (outcomes (reports ++ more)).Distinct) :
    (together reports).merge (together more) = together (reports ++ more) := by
  have fields : mergeFields (outcomes reports) (outcomes more) = outcomes (reports ++ more) := by
    rw [outcomes_append] at distinct ⊢
    rw [mergeFields_eq_joinAll, Keyed.joinAll_of_distinct mergeOutcome distinct]
  have valid (errors others : List FieldError) :
      bothValid (.bool errors.isEmpty) (.bool others.isEmpty) = .bool (errors ++ others).isEmpty := by
    cases errors <;> cases others <;> rfl
  simp only [together, Report.merge, fields, valid, List.map_append, List.flatMap_append, Tally.sum_append, mergeTally,
    Option.getD_some]
  rfl

theorem together_singleton {path? : Option Value} {report : Report} (own : report.IsOwn path?)
    (consistent : report.Consistent) : together [report] = report := by
  obtain ⟨tally, counted⟩ := Option.isSome_iff_exists.mp own.counted
  obtain ⟨valid, errors, fields, computed, metadata, tally?, graph⟩ := report
  have valid : valid = .bool errors.isEmpty := consistent.valid
  have computed : computed = [] := own.computed
  have metadata : metadata = .null := own.metadata
  have graph : graph = .null := own.graph
  have counted : tally? = some tally := counted
  have sum : tally.add {} = tally := by simp [Tally.add]
  subst valid computed metadata graph counted
  simp [together, outcomes, Tally.sum, sum]

end Report

namespace Pass

variable {σ : Type}

/-- From any progress, steps end in the fault of a result or in a report that is a good one for what it found; the
scores of what it found are added. -/
def Finds (steps : Pass σ Report) (result : Except Fault (List Found)) (good : List Found → Report → Prop) : Prop :=
  ∀ p, match result with
  | .error fault => ∃ p', steps.run.run p = (.error fault, p')
  | .ok founds => ∃ report p', steps.run.run p = (.ok report, p') ∧ good founds report ∧
      p'.scores = Keyed.merge p.scores (founds.flatMap (·.scores))

namespace Finds

theorem throw (fault : Fault) {good : List Found → Report → Prop} :
    Finds (throw fault : Pass σ Report) (.error fault) good :=
  fun p => ⟨p, rfl⟩

theorem pure {report : Report} {good : List Found → Report → Prop} (holds : good [] report) :
    Finds (pure report : Pass σ Report) (.ok []) good :=
  fun p => ⟨report, p, rfl, holds, rfl⟩

theorem weaken {steps : Pass σ Report} {result : Except Fault (List Found)} {good better : List Found → Report → Prop}
    (finds : Finds steps result better) (implies : ∀ founds report, better founds report → good founds report) :
    Finds steps result good := by
  intro p
  have ended := finds p
  cases result with
  | error fault => exact ended
  | ok founds =>
    obtain ⟨report, p', run, holds, scores⟩ := ended
    exact ⟨report, p', run, implies _ _ holds, scores⟩

theorem append {first : Pass σ Report} {next : Report → Pass σ Report} {result more : Except Fault (List Found)}
    {good last : List Found → Report → Prop} (one : Finds first result good)
    (rest : ∀ founds report, good founds report → Finds (next report) more fun others => last (founds ++ others)) :
    Finds (first >>= next) (do return (← result) ++ (← more)) last := by
  intro p
  cases result with
  | error fault =>
    obtain ⟨p', run⟩ := one p
    exact ⟨p', by rw [run_bind, run]⟩
  | ok founds =>
    obtain ⟨report, q, run, holds, scores⟩ := one p
    have others := rest founds report holds q
    cases more with
    | error fault =>
      obtain ⟨p', ended⟩ := others
      exact ⟨p', (run_bind_of_ok run next).trans ended⟩
    | ok more =>
      obtain ⟨report, p', ended, holds, scores'⟩ := others
      refine ⟨report, p', (run_bind_of_ok run next).trans ended, holds, ?_⟩
      rw [scores', scores, List.flatMap_append]
      exact List.foldl_append.symm

end Finds

section Items

variable {backend : Backend σ} {judgement : Judgement} (decides : backend.Decides judgement)
  {context actual : Context} (data : actual.data = context.data) (blind : judgement.IsBlindTo actual context) (state : σ)

/-- A report of what was found, if it is about different fields. -/
def Adds (done : List Report) (founds : List Found) (last : Report) : Prop :=
  (Report.outcomes (done ++ founds.map (·.report))).Distinct → last = Report.together (done ++ founds.map (·.report))

include decides data blind

theorem checkLeaf_finds (fields : Fields) (parent : Value) :
    Finds (ownReport (checkLeaf backend actual fields parent))
      ([Item.Piece.field (Keyed.erase fields (.text "items")) parent].mapM (found backend context state)) (Adds []) := by
  rw [← checkLeaf_congr backend actual (Item.agree_erase_items fields)]
  have single (piece : Item.Piece) : [piece].mapM (found backend context state) =
      (found backend context state piece).map ([·]) := by
    rw [List.mapM_cons, List.mapM_nil]
    cases found backend context state piece <;> rfl
  rw [single]
  intro p
  have ended := ownReport_found decides data blind state (Keyed.erase fields (.text "items")) parent p
  cases known : found backend context state (.field (Keyed.erase fields (.text "items")) parent) with
  | error fault =>
    rw [known] at ended
    exact ended
  | ok found =>
    rw [known] at ended
    obtain ⟨p', run, scores⟩ := ended
    have own := isOf_of_found decides state known
    refine ⟨found.report, p', run, fun _ => ?_, ?_⟩
    · exact (Report.together_singleton own.own own.consistent).symm
    · simpa using scores

omit decides data blind

mutual

theorem checkItem_finds (decides : backend.Decides judgement) (data : actual.data = context.data)
    (blind : judgement.IsBlindTo actual context) : (item : Item) → ∀ parent,
    Finds (checkItem backend actual parent item) ((item.pieces parent).mapM (found backend context state)) (Adds [])
  | .stray kind, _ => .throw _
  | .untyped _ fault, _ => .throw fault
  | .leaf fields, parent => checkLeaf_finds decides data blind state fields parent
  | .container fields children, parent => by
    have steps : checkItem backend actual parent (.container fields children) =
      (liftM (Item.pathOf fields parent) >>= fun path => checkItems backend actual path Report.counting children) := rfl
    rw [steps, Item.pieces]
    cases Item.pathOf fields parent with
    | error fault => exact .throw fault
    | ok path =>
      exact (checkItems_finds decides data blind children path Report.counting).weaken fun founds last adds =>
        adds [] rfl

theorem checkItems_finds (decides : backend.Decides judgement) (data : actual.data = context.data)
    (blind : judgement.IsBlindTo actual context) : (items : List Item) → ∀ parent report,
    Finds (checkItems backend actual parent report items)
      ((Item.piecesOf parent items).mapM (found backend context state)) fun founds last =>
        ∀ done, report = Report.together done → Adds done founds last
  | [], parent, report => .pure fun done same _ => by rw [same, List.map_nil, List.append_nil]
  | item :: items, parent, report => by
    -- what is found of an item joins what is there already, if all of it is about different fields
    rw [Item.piecesOf, List.mapM_append]
    refine (checkItem_finds decides data blind item parent).append fun founds own adds => ?_
    refine (checkItems_finds decides data blind items parent (report.merge own)).weaken fun more last added => ?_
    rintro done rfl distinct
    rw [List.map_append, ← List.append_assoc] at distinct ⊢
    have before := Report.distinct_of_append distinct
    have merged : (Report.together done).merge own = Report.together (done ++ founds.map (·.report)) := by
      rw [adds (Report.distinct_append_right before)]
      exact Report.together_merge before
    exact added _ merged distinct

end

/-- The report of a form of which some things were found. -/
def finish (context : Context) (founds : List Found) (rules : List Value) : Except Fault Report := do
  let all ← FormScores.applyAll context { scores := Keyed.merge [] (founds.flatMap (·.scores)) } rules
  return all.addTo (Report.together (founds.map (·.report)))

def rulesOf (form : Value) : Except Fault (List Value) := do
  listIn (← form.asObject) "computedRules"

/-- What is found of the parts of a form, put together. -/
def whole (backend : Backend σ) (context : Context) (state : σ) (form : Value) : Except Fault Report := do
  let founds ← (← Form.pieces form).mapM (found backend context state)
  finish context founds (← rulesOf form)

variable (context actual) in
/-- A pass over a form puts together what is found of its parts. -/
theorem checkForm_ends (decides : backend.Decides judgement) (data : actual.data = context.data)
    (blind : judgement.IsBlindTo actual context) (start : σ)
    (distinct : ∀ parts founds, Form.pieces actual.form = .ok parts →
      parts.mapM (found backend context state) = .ok founds → (Report.outcomes (founds.map (·.report))).Distinct) :
    ((checkForm backend actual).run.run { backend := start }).1 = whole backend context state actual.form := by
  unfold checkForm whole rulesOf finish
  cases known : actual.form.asObject with
  | error fault =>
    rw [Form.pieces_of_broken known]
    rfl
  | ok form =>
    have parts := Form.pieces_of_object known
    rw [parts, lift_ok_bind]
    cases listed : listIn form "items" with
    | error fault => rfl
    | ok items =>
      rw [lift_ok_bind]
      have finds := checkItems_finds state decides data blind (Item.ofList items) (.text "") Report.counting
        { backend := start }
      show _ = ((Item.piecesOf (.text "") (Item.ofList items)).mapM (found backend context state) >>= _)
      cases ended : (Item.piecesOf (.text "") (Item.ofList items)).mapM (found backend context state) with
      | error fault =>
        rw [ended] at finds
        obtain ⟨p', run⟩ := finds
        rw [run_bind, run]
        rfl
      | ok founds =>
        rw [ended] at finds
        obtain ⟨report, p', run, adds, scores⟩ := finds
        have whole : report = Report.together (founds.map (·.report)) :=
          adds [] rfl (distinct _ _ (by rw [parts, listed]; rfl) ended)
        rw [run_bind_of_ok run]
        show _ = (listIn form "computedRules" >>= _)
        cases listIn form "computedRules" with
        | error fault => rfl
        | ok rules =>
          rw [lift_ok_bind, run_bind_of_ok run_get, scores, whole, applyAll_congr data]
          show _ = (FormScores.applyAll context _ rules >>= _)
          cases FormScores.applyAll context { scores := Keyed.merge [] (founds.flatMap (·.scores)) } rules <;> rfl

end Items

section Distinct

variable {σ : Type} {backend : Backend σ} {context : Context} {state : σ} {parts : List Item.Piece} {founds : List Found}

/-- Whatever is filed under the paths of fields is filed under different keys if the paths are different. -/
theorem keyed_distinct {α : Type} (filed : Found → Keyed α)
    (own : ∀ piece entry, found backend context state piece = .ok entry → (filed entry).Distinct ∧
      ∀ field ∈ filed entry, ∃ path, piece.path? = some path ∧ path.asKey = .ok field.1)
    (apart : Form.AreDistinct (parts.filterMap Item.Piece.path?))
    (ended : parts.mapM (found backend context state) = .ok founds) : Keyed.Distinct (founds.flatMap filed) := by
  rw [Form.AreDistinct, List.pairwise_filterMap] at apart
  induction parts generalizing founds with
  | nil =>
    cases ended
    exact .nil
  | cons piece parts ih =>
    rw [List.mapM_cons] at ended
    obtain ⟨here, known, ended⟩ := Fault.of_bind_ok ended
    obtain ⟨others, later, ended⟩ := Fault.of_bind_ok ended
    cases ended
    obtain ⟨others_apart, apart⟩ := List.pairwise_cons.mp apart
    obtain ⟨alone, keys⟩ := own piece here known
    -- entries of two parts are under their paths, and these are different
    refine List.pairwise_append.mpr ⟨alone, ih apart later, fun field member other listed => ?_⟩
    obtain ⟨entry, among, inside⟩ := List.mem_flatMap.mp listed
    obtain ⟨piece', member', known'⟩ := Fault.exists_of_mapM_ok later among
    obtain ⟨path, place, key⟩ := keys field member
    obtain ⟨path', place', key'⟩ := (own piece' entry known').2 other inside
    exact others_apart piece' member' path place path' place' _ _ key key'

variable {judgement : Judgement} (decides : backend.Decides judgement)
  (apart : Form.AreDistinct (parts.filterMap Item.Piece.path?))
  (ended : parts.mapM (found backend context state) = .ok founds)

include decides apart ended

theorem outcomes_distinct : (Report.outcomes (founds.map (·.report))).Distinct := by
  have filed : Report.outcomes (founds.map (·.report)) = founds.flatMap (·.report.fields) := List.flatMap_map ..
  rw [filed]
  refine keyed_distinct (·.report.fields) (fun piece entry known => ?_) apart ended
  have own := isOf_of_found decides state known
  exact ⟨own.consistent.distinct, own.own.keys⟩

theorem scores_distinct : Keyed.Distinct (founds.flatMap (·.scores)) := by
  refine keyed_distinct (·.scores) (fun piece entry known => ?_) apart ended
  obtain none | ⟨path, key, score, place, key', one⟩ := (isOf_of_found decides state known).scores
  · rw [none]
    exact ⟨.nil, List.forall_mem_nil _⟩
  · rw [one]
    exact ⟨List.pairwise_singleton _ _, List.forall_mem_singleton.mpr ⟨path, place, key'⟩⟩

end Distinct

theorem together_sameEntries {founds others : List Found} (perm : founds.Perm others) :
    (Report.together (founds.map (·.report))).SameEntries (Report.together (others.map (·.report))) := by
  have reports := perm.map (·.report)
  have errors := reports.flatMap_right Report.errors
  exact {
    valid := by rw [Report.together, Report.together, errors.isEmpty_eq]
    errors
    fields := reports.flatMap_right Report.fields
    computed := .nil
    tally := congrArg some (Tally.sum_perm (reports.map _))
    metadata := rfl
    graph := rfl }

theorem rulesOf_rearranged {form other : Value} (rearranged : form.Rearranged other) : rulesOf other = rulesOf form := by
  cases rearranged with
  | same => rfl
  | inside _ _ _ =>
    show listIn _ "computedRules" = listIn _ "computedRules"
    unfold listIn
    rw [Item.agree_insert_items _ _ "computedRules" (by decide)]

/-- Two results that are faults, or reports with the same entries. -/
def EndAlike (result result' : Except Fault Report) : Prop :=
  (∃ fault fault', result = .error fault ∧ result' = .error fault') ∨
    ∃ report report', result = .ok report ∧ result' = .ok report' ∧ report.SameEntries report'

theorem finish_perm (context : Context) {founds others : List Found} (perm : founds.Perm others)
    (distinct : Keyed.Distinct (founds.flatMap (·.scores))) (rules : List Value) :
    EndAlike (finish context founds rules) (finish context others rules) := by
  have scores := perm.flatMap_right Found.scores
  have alike : FormScores.Alike { scores := Keyed.merge [] (founds.flatMap (·.scores)) }
      { scores := Keyed.merge [] (others.flatMap (·.scores)) } :=
    ⟨Keyed.merge_perm scores distinct [] .nil, Keyed.Distinct.merge .nil _, rfl⟩
  unfold finish
  obtain ⟨fault, left, right⟩ | ⟨all, all', left, right, alike⟩ := FormScores.applyAll_alike context rules alike
  · rw [left, right]
    exact .inl ⟨fault, fault, rfl, rfl⟩
  · rw [left, right]
    exact .inr ⟨_, _, rfl, rfl, FormScores.addTo_alike alike (together_sameEntries perm) .nil⟩

theorem whole_rearranged {σ : Type} {backend : Backend σ} {judgement : Judgement} (decides : backend.Decides judgement)
    (context : Context) (state : σ) {form other : Value} (rearranged : form.Rearranged other)
    (distinct : Form.AreDistinct (Form.dataPaths form)) :
    EndAlike (whole backend context state form) (whole backend context state other) := by
  unfold whole
  rw [Form.dataPaths] at distinct
  obtain ⟨fault, left, right⟩ | ⟨parts, parts', left, right, perm⟩ := Form.pieces_perm rearranged
  · rw [left, right]
    exact .inl ⟨fault, fault, rfl, rfl⟩
  · rw [left] at distinct
    rw [left, right]
    show EndAlike (parts.mapM (found backend context state) >>= _) (parts'.mapM (found backend context state) >>= _)
    obtain ⟨fault, fault', ended, ended'⟩ | ⟨founds, founds', ended, ended', perm⟩ :=
      Fault.mapM_perm (f := found backend context state) perm
    · rw [ended, ended']
      exact .inl ⟨fault, fault', rfl, rfl⟩
    · rw [ended, ended']
      show EndAlike (rulesOf form >>= finish context founds) (rulesOf other >>= finish context founds')
      rw [rulesOf_rearranged rearranged]
      cases rulesOf form with
      | error fault => exact .inl ⟨fault, fault, rfl, rfl⟩
      | ok rules => exact finish_perm context perm (scores_distinct decides distinct ended) rules

/-- Items of a form in another order, at any depth, make no difference if no two fields have the same path: both
passes end in a fault, or in reports with the same entries. The context of a field holds the whole form, so the
backend is one that goes by the value, the rule and the context without looking there in which order items stand. -/
theorem checkForm_rearranged {σ : Type} {backend : Backend σ} {judgement : Judgement} {context : Context}
    {form other : Value} (decides : backend.Decides judgement) (rearranged : form.Rearranged other)
    (distinct : Form.AreDistinct (Form.dataPaths form))
    (blind : judgement.IsBlindTo (context.withForm other) (context.withForm form)) (start start' : σ) :
    EndAlike ((checkForm backend (context.withForm form)).run.run { backend := start }).1
      ((checkForm backend (context.withForm other)).run.run { backend := start' }).1 := by
  have apart (some : Value) (paths : Form.AreDistinct (Form.dataPaths some)) (parts : List Item.Piece)
      (founds : List Found) (listed : Form.pieces some = .ok parts)
      (ended : parts.mapM (found backend (context.withForm form) start) = .ok founds) :
      (Report.outcomes (founds.map (·.report))).Distinct := by
    rw [Form.dataPaths, listed] at paths
    exact outcomes_distinct decides paths ended
  have ends : ((checkForm backend (context.withForm form)).run.run { backend := start }).1 =
      whole backend (context.withForm form) start form :=
    checkForm_ends (context.withForm form) (context.withForm form) start decides rfl (fun _ _ _ => rfl) start
      (apart form distinct)
  have ends' : ((checkForm backend (context.withForm other)).run.run { backend := start' }).1 =
      whole backend (context.withForm form) start other :=
    checkForm_ends (context.withForm form) (context.withForm other) start decides rfl blind start'
      (apart other (Form.dataPaths_distinct rearranged distinct))
  rw [ends, ends']
  exact whole_rearranged decides _ start rearranged distinct

/-- A name and an address change places, and so do the lines of the address. -/
theorem checkForm_rearranged_address :
    let rejecting : Backend Unit := fun _ rule _ state => (.ok (.failure rule "No"), state)
    let field (name : String) : Value := .ofFields [("name", .text name),
      ("validationRules", .list [.ofFields [("type", .text "email")], .ofFields [("type", .text "required")]])]
    let address (lines : List Value) : Value := .ofFields [("name", .text "address"), ("type", .text "group"),
      ("items", .list lines)]
    let form : Value := .ofFields [("items", .list [field "name", address [field "city", field "street"]])]
    let other : Value := .ofFields [("items", .list [address [field "street", field "city"], field "name"])]
    let context (form : Value) : Context := (Context.ofData (.ofFields [])).withForm form
    EndAlike ((checkForm rejecting (context form)).run.run { backend := () }).1
      ((checkForm rejecting (context other)).run.run { backend := () }).1 := by
  intro rejecting field address form other context
  have decides : rejecting.Decides fun _ rule _ => .failure rule "No" := fun _ _ _ _ => rfl
  have lines : (address [field "city", field "street"]).Rearranged (address [field "street", field "city"]) :=
    .inside rfl (.cons (.same _) (.cons (.same _) .nil)) (.swap ..)
  have rearranged : form.Rearranged other := .inside rfl (.cons (.same _) (.cons lines .nil)) (.swap ..)
  have paths : Form.dataPaths form = [.text "name", .text "address.city", .text "address.street"] := rfl
  have distinct : Form.AreDistinct (Form.dataPaths form) := by
    rw [paths, Form.AreDistinct]
    simp [Value.asKey, Scalar.coincides_text]
  exact checkForm_rearranged decides rearranged distinct (fun _ _ _ => rfl) () ()

/-- A backend that goes by the value, the rule and the context alone still tells an order of fields from another one if it
looks for the first item of the form; and so does the standard backend as long as it keeps what it was answered, for then
the rule that asks first says what is shown for both. -/
theorem checkForm_rearranged_told :
    let field (name : String) : Value := .ofFields [("name", .text name), ("validationRules", .list [
      .ofFields [("type", .text "async"), ("apiEndpoint", .text "codes"), ("message", .text name)]])]
    let form (first last : String) : Value := .ofFields [("items", .list [field first, field last])]
    let data : Value := .ofFields [("old", .text "x"), ("new", .text "x")]
    let context (form : Value) : Context := { (Context.ofData data).withForm form with caching := true }
    let judgement : Judgement := fun _ rule seen =>
      match seen.form with
      | .object [(_, .list (item :: _))] => if item.same (field "old") then .pass else .failure rule "No"
      | _ => .pass
    let looking : Backend Unit := fun value rule seen state => (.ok (judgement value rule seen), state)
    let messages {σ : Type} (backend : Backend σ) (state : σ) (form : Value) : Option (List String) :=
      ((checkForm backend (context form)).run.run { backend := state }).1.toOption.map fun report =>
        report.errors.map (·.message.shown)
    (form "old" "new").Rearranged (form "new" "old") ∧ Form.AreDistinct (Form.dataPaths (form "old" "new")) ∧
      looking.Decides judgement ∧
      messages looking () (form "old" "new") = some [] ∧
      messages looking () (form "new" "old") = some ["new", "old"] ∧
      let standard := Rule.check { callbacks := { registry := .standard } }
      messages standard {} (form "old" "new") = some ["old", "old"] ∧
      messages standard {} (form "new" "old") = some ["new", "new"] := by
  intro field form data context judgement looking messages
  have rearranged : (form "old" "new").Rearranged (form "new" "old") :=
    .inside rfl (.cons (.same _) (.cons (.same _) .nil)) (.swap ..)
  have paths : Form.dataPaths (form "old" "new") = [.text "old", .text "new"] := rfl
  have distinct : Form.AreDistinct (Form.dataPaths (form "old" "new")) := by
    rw [paths, Form.AreDistinct]
    simp [Value.asKey, Scalar.coincides_text]
  refine ⟨rearranged, distinct, fun _ _ _ _ => rfl, ?_⟩
  decide +kernel

end Pass

end FormRules

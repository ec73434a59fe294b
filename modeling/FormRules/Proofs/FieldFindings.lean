import FormRules.Proofs.PairedRuns
import FormRules.Proofs.PassOutcome
import FormRules.Proofs.RearrangedItems

/-! What checking one field comes to, on its own. It does not depend on what was checked before, as long as the backend
goes by nothing else than what it is asked, and whatever the field writes, it writes under its own path. -/

namespace FormRules

namespace Report

/-- A report in which nothing is said but about the field at a path, if there is one. -/
structure IsOwn (path? : Option Value) (report : Report) : Prop where
  keys : ∀ entry ∈ report.fields, ∃ path, path? = some path ∧ path.asKey = .ok entry.1
  computed : report.computed = []
  counted : report.tally?.isSome = true
  metadata : report.metadata = .null
  graph : report.graph = .null

theorem isOwn_counting (path? : Option Value) : counting.IsOwn path? := ⟨List.forall_mem_nil _, rfl, rfl, rfl, rfl⟩

end Report

theorem Item.Piece.Filed.isOwn {source : Source} {piece : Item.Piece} {report : Report}
    (filed : piece.Filed source report) : report.IsOwn piece.path? := by
  cases filed with
  | silent => exact Report.isOwn_counting _
  | skipped key reason rules place =>
    exact ⟨List.forall_mem_singleton.mpr (Item.Piece.path?_of_filing? place), rfl, rfl, rfl, rfl⟩
  | judged name errors told place added =>
    obtain ⟨path, here, known⟩ := Item.Piece.path?_of_filing? place
    rw [here]
    have counted : told.tally?.isSome = true := by
      obtain ⟨change, _, counted⟩ := added.counted
      rw [counted]
      rfl
    have one (outcome : FieldOutcome) : ∀ entry ∈ [((.text name : Scalar), outcome)],
        ∃ place, some path = some place ∧ place.asKey = .ok entry.1 :=
      List.forall_mem_singleton.mpr ⟨path, rfl, known⟩
    have fields := added.fields
    cases errors with
    | nil =>
      refine ⟨?_, added.computed, counted, added.metadata, added.graph⟩
      show ∀ entry ∈ Keyed.insert told.fields _ _, _
      rw [fields]
      exact one _
    | cons error errors =>
      refine ⟨?_, added.computed, counted, added.metadata, added.graph⟩
      show ∀ entry ∈ told.fields, _
      rw [fields, Report.foldl_addToField _ _ (List.cons_ne_nil _ _)]
      exact one _

namespace Pass

theorem path?_of_holds {parent path : Value} {fields own : Fields} (holds : Item.Holds parent (.leaf fields) path own) :
    own = fields ∧ (Item.Piece.field fields parent).path? = some path := by
  obtain ⟨same, sort, named, place⟩ := holds.of_leaf
  exact ⟨same, Item.Piece.path?_eq_some.mpr ⟨sort, named, place⟩⟩

end Pass

def Context.withForm (context : Context) (form : Value) : Context := { context with form }

/-- Whether a judgement does not tell two contexts apart, wherever in them a field is. -/
def Judgement.IsBlindTo (judgement : Judgement) (first second : Context) : Prop :=
  ∀ value rule path, judgement value rule (first.child path) = judgement value rule (second.child path)

/-- What checking a field comes to: its report, and its score if it has one. -/
structure Found where
  report : Report
  scores : Keyed Scoring.Score

/-- What is found says nothing but about the field at a path, if there is one. -/
structure Found.IsOf (path? : Option Value) (found : Found) : Prop where
  own : found.report.IsOwn path?
  consistent : found.report.Consistent
  scores : found.scores = [] ∨
    ∃ path key score, path? = some path ∧ path.asKey = .ok key ∧ found.scores = [(key, score)]

namespace Pass

/-- Scores to which those of a log were added, which has one under a path at most. -/
def Logged (base : Keyed Scoring.Score) (path? : Option Value) (scores log : Keyed Scoring.Score) : Prop :=
  scores = Keyed.merge base log ∧
    (log = [] ∨ ∃ path key score, path? = some path ∧ path.asKey = .ok key ∧ log = [(key, score)])

theorem Logged.insert {base scores log : Keyed Scoring.Score} {name : String}
    (logged : Logged base (some (.text name)) scores log) (score : Scoring.Score) :
    Logged base (some (.text name)) (Keyed.insert scores (.text name) score) (Keyed.insert log (.text name) score) := by
  obtain ⟨rfl, rfl | ⟨path, key, old, place, known, rfl⟩⟩ := logged
  · exact ⟨rfl, .inr ⟨_, .text name, score, rfl, rfl, rfl⟩⟩
  · cases place
    cases known
    have last : Keyed.insert [(.text name, old)] (.text name) score = [(.text name, score)] :=
      Keyed.insert_insert_text [] name old score
    rw [last]
    exact ⟨Keyed.insert_insert_text base name old score, .inr ⟨_, .text name, score, rfl, rfl, rfl⟩⟩

/-- What checking a part of a form comes to if nothing was checked before. -/
def found {σ : Type} (backend : Backend σ) (context : Context) (state : σ) : Item.Piece → Except Fault Found
  | .broken fault => .error fault
  | .field fields parent =>
    match (checkLeaf backend context fields parent).run.run { backend := state } with
    | (.ok _, later) => .ok ⟨later.report, later.scores⟩
    | (.error fault, _) => .error fault

section Found

variable {σ : Type} {backend : Backend σ} {judgement : Judgement} (decides : backend.Decides judgement)
  {context actual : Context} (data : actual.data = context.data) (blind : judgement.IsBlindTo actual context) (state : σ)

include decides data blind

/-- Checking a field comes to the same whatever was checked before. -/
theorem checkLeaf_paired_alone (fields : Fields) (parent : Value) (base : Keyed Scoring.Score) :
    Paired (Twins (fun (_ _ : σ) => True) (Logged base (Item.Piece.field fields parent).path?))
      (checkLeaf backend actual fields parent) (checkLeaf backend context fields parent) := by
  refine checkLeaf_paired data fun path own holds subject rule poses => ?_
  obtain ⟨rfl, place⟩ := path?_of_holds holds
  obtain ⟨name, value, isRequired, rfl, rfl⟩ : ∃ name value isRequired, path = .text name ∧
      subject = ⟨path, value, isRequired, actual.child ((Path.segments name).map .text)⟩ := by
    cases poses with
    | rule given kinds taken member shown known =>
      obtain ⟨name, value, rfl, rfl⟩ := subjectOf_ok known
      exact ⟨name, value, _, rfl, rfl⟩
  rw [place]
  constructor
  · intro _ s t _
    refine ⟨?_, trivial⟩
    rw [decides, decides]
    exact blind value rule _
  · intro _ key known score s t logged
    cases known
    exact logged.insert score

/-- A field by itself comes to what is found of it, from any progress. -/
theorem ownReport_found (fields : Fields) (parent : Value) (p : Progress σ) :
    match found backend context state (.field fields parent) with
    | .error fault => ∃ p', (ownReport (checkLeaf backend actual fields parent)).run.run p = (.error fault, p')
    | .ok found => ∃ p', (ownReport (checkLeaf backend actual fields parent)).run.run p = (.ok found.report, p') ∧
        p'.scores = Keyed.merge p.scores found.scores := by
  have start : Twins (fun (_ _ : σ) => True) (Logged p.scores (Item.Piece.field fields parent).path?)
      { p with report := Report.counting } { backend := state } := ⟨trivial, ⟨rfl, .inl rfl⟩, rfl⟩
  rw [ownReport_run, found]
  obtain ⟨fault, p', q', left, right⟩ | ⟨_, p', q', left, right, later⟩ :=
    checkLeaf_paired_alone decides data blind fields parent p.scores _ _ start
  · rw [left, right]
    exact ⟨_, rfl⟩
  · rw [left, right]
    simp only
    rw [← later.report]
    exact ⟨_, rfl, later.scores.1⟩

omit data blind
include decides

theorem isOf_of_found {piece : Item.Piece} {found : Found} (ended : Pass.found backend context state piece = .ok found) :
    found.IsOf piece.path? := by
  cases piece with
  | broken fault => cases ended
  | field fields parent =>
    obtain ⟨fault, p', q', left, right⟩ | ⟨_, p', q', left, right, later⟩ :=
      checkLeaf_paired_alone decides (rfl : context.data = context.data) (fun _ _ _ => rfl) fields parent []
        { backend := state } { backend := state } ⟨trivial, ⟨rfl, .inl rfl⟩, rfl⟩
    · rw [Pass.found, right] at ended
      cases ended
    · rw [Pass.found, right] at ended
      cases ended
      have filed := checkLeaf_files backend context fields parent _ rfl _ _ right
      exact ⟨filed.isOwn, filed.consistent, later.scores.2⟩

end Found

end Pass

end FormRules

import FormRules.Proofs.KeyedOrder
import FormRules.Proofs.PairedRuns

/-! The rules that score a form as a whole look scores up by the names of fields. They come to the same in whatever
order the scores of the fields stand. -/

namespace FormRules

namespace Scoring

/-- Whether a rule that sums scores up looks for that of a field. -/
def Rollup.Reads (rule : Fields) (key : Scalar) : Prop :=
  ∃ names, ((Fields.get rule "inputFields").orElse (.list [])).items = .ok names ∧
    ∃ name ∈ names, name.asKey = .ok key

variable {scores others : Keyed Score}

theorem sumUp_congr {names : List Value} (same : ∀ name ∈ names, ∀ key, name.asKey = .ok key →
      Keyed.find? scores key = Keyed.find? others key) (mapping : Value) (sums : Sums) :
    sumUp scores mapping sums names = sumUp others mapping sums names := by
  induction names generalizing sums with
  | nil => rfl
  | cons name names ih =>
    obtain ⟨here, rest⟩ := List.forall_mem_cons.mp same
    rw [sumUp, sumUp]
    cases known : name.asKey with
    | error fault => rfl
    | ok key => simp only [bind, Except.bind, here key known, ih rest]

/-- A rule comes to the same sum if the scores that it looks for are the same. -/
theorem ofScores_congr {rule : Fields}
    (same : ∀ key, Rollup.Reads rule key → Keyed.find? scores key = Keyed.find? others key) :
    Rollup.ofScores scores rule = Rollup.ofScores others rule := by
  unfold Rollup.ofScores
  simp only
  split
  next => rfl
  next =>
    cases given : ((Fields.get rule "inputFields").orElse (.list [])).items with
    | error fault => rfl
    | ok names =>
      have summed (mapping : Value) : sumUp scores mapping {} names = sumUp others mapping {} names :=
        sumUp_congr (fun name member key known => same key ⟨names, given, name, member, known⟩) mapping {}
      show (sumUp scores _ {} names >>= _) = (sumUp others _ {} names >>= _)
      rw [summed]

end Scoring

namespace FormScores

/-- The same scores, those of fields in another order. -/
structure Alike (all others : FormScores) : Prop where
  scores : all.scores.Perm others.scores
  distinct : all.scores.Distinct
  rollups : all.rollups = others.rollups

/-- Scores that are the same come to the same: a fault, or scores that are the same again. -/
def Follow (result other : Except Fault FormScores) : Prop :=
  (∃ fault, result = .error fault ∧ other = .error fault) ∨
    ∃ all others, result = .ok all ∧ other = .ok others ∧ all.Alike others

variable {all others : FormScores} (alike : all.Alike others)

include alike

theorem scoreField_alike (context : Context) (rule : Fields) :
    Follow (scoreField context rule all) (scoreField context rule others) := by
  unfold scoreField
  simp only
  split
  next =>
    cases context.value (Fields.get rule "fieldName") with
    | error fault => exact .inl ⟨fault, rfl, rfl⟩
    | ok value =>
      have run (all : FormScores) : (do
          let value ← (.ok value : Except Fault Value)
          let scores ← Pass.withScore all.scores (Fields.get rule "fieldName") value rule
          return { all with scores }) =
          (Pass.withScore all.scores (Fields.get rule "fieldName") value rule).map fun scores => { all with scores } := by
        show (Pass.withScore all.scores (Fields.get rule "fieldName") value rule >>= _) = _
        cases Pass.withScore all.scores (Fields.get rule "fieldName") value rule <;> rfl
      rw [run, run]
      obtain ⟨fault, ended⟩ | kept | ⟨key, score, _, ended⟩ :=
        Pass.withScore_cases (Fields.get rule "fieldName") value rule
      · rw [ended, ended]
        exact .inl ⟨fault, rfl, rfl⟩
      · rw [kept, kept]
        exact .inr ⟨all, others, rfl, rfl, alike⟩
      · rw [ended, ended]
        exact .inr ⟨_, _, rfl, rfl, Keyed.insert_perm alike.scores alike.distinct key score,
          alike.distinct.insert key score, alike.rollups⟩
  next => exact .inr ⟨all, others, rfl, rfl, alike⟩

theorem sumUp_alike (rule : Fields) : Follow (sumUp rule all) (sumUp rule others) := by
  unfold sumUp
  rw [Scoring.ofScores_congr fun key _ => Keyed.find?_perm alike.scores alike.distinct key, alike.rollups]
  cases Scoring.Rollup.ofScores others.scores rule with
  | error fault => exact .inl ⟨fault, rfl, rfl⟩
  | ok rollup =>
    cases (Fields.get rule "name").asKey with
    | error fault => exact .inl ⟨fault, rfl, rfl⟩
    | ok key => exact .inr ⟨_, _, rfl, rfl, alike.scores, alike.distinct, rfl⟩

theorem apply_alike (context : Context) (rule : Fields) :
    Follow (apply context rule all) (apply context rule others) := by
  unfold apply
  simp only
  split
  · exact scoreField_alike alike context rule
  · split
    · exact sumUp_alike alike rule
    · exact .inr ⟨all, others, rfl, rfl, alike⟩

omit alike in
theorem applyAll_alike (context : Context) (rules : List Value) : ∀ {all others : FormScores}, all.Alike others →
    Follow (applyAll context all rules) (applyAll context others rules) := by
  induction rules with
  | nil => exact fun alike => .inr ⟨_, _, rfl, rfl, alike⟩
  | cons rule rules ih =>
    intro all others alike
    cases rule with
    | scalar _ | list _ | handle _ => exact .inl ⟨_, rfl, rfl⟩
    | object fields =>
      rw [applyAll_object, applyAll_object]
      obtain ⟨fault, left, right⟩ | ⟨more, others', left, right, later⟩ := apply_alike alike context fields
      · rw [left, right]
        exact ih alike
      · rw [left, right]
        exact ih later

end FormScores

/-- Reports with the same entries: their lists may be in another order, and nothing else. -/
structure Report.SameEntries (report other : Report) : Prop where
  valid : report.valid = other.valid
  errors : report.errors.Perm other.errors
  fields : report.fields.Perm other.fields
  computed : report.computed.Perm other.computed
  tally : report.tally? = other.tally?
  metadata : report.metadata = other.metadata
  graph : report.graph = other.graph

namespace FormScores

theorem addTo_alike {all others : FormScores} (alike : all.Alike others) {report other : Report}
    (same : report.SameEntries other) (distinct : report.computed.Distinct) :
    (all.addTo report).SameEntries (others.addTo other) := by
  have own := alike.distinct.mapValues Computed.score
  rw [addTo_eq, addTo_eq, alike.rollups]
  refine { same with computed := ?_ }
  refine .trans (Keyed.merge_perm_left (Keyed.merge_perm_left same.computed distinct _) (distinct.merge _) _) ?_
  exact Keyed.merge_perm (alike.scores.map _) own _ ((distinct.perm same.computed).merge _)

end FormScores

end FormRules

import FormRules.Proofs.NameOrder
import FormRules.Proofs.ScoringRange
import Mathlib.Logic.Relation

/-! A choice of several answers is compared with the right ones as a collection of canonical texts: how often each text
is there counts, but neither the order of the answers nor that of the names inside them. -/

namespace FormRules

namespace Scoring

/-- Whether a choice is right and what it earns, by the sorted texts of the answers chosen and of the right ones;
`shares` is whether a part of them earns a part of the points. -/
def grade (stakes : Stakes) (shares : Bool) (given wanted : List String) : Except Fault (Bool × Value) :=
  if given == wanted then (roundHalfUp stakes.points 2).map (true, ·)
  else if shares && !wanted.isEmpty then
    (partialPoints stakes (given.countP wanted.contains) (given.length - given.countP wanted.contains) wanted.length >>=
      (roundHalfUp · 2)).map (false, ·)
  else (stakes.lost >>= (roundHalfUp · 2)).map (false, ·)

/-- Whether a rule gives a part of the points for a part of the right answers. -/
def sharesPoints (rule : Fields) : Bool := (setting rule "partialCredit" (.bool false)).truthy

/-- A score with its grade alone. -/
def Score.grade (score : Score) : Bool × Value := (score.correct, score.earned)

/-- The grade of a choice depends on sorted texts only. -/
theorem choices_grade {rule : Fields} {right : List Value} (listed : Fields.get rule "correctAnswer" = .list right)
    (answer : Value) : (choices answer rule).map Score.grade =
      sortedTexts (chosen answer) >>= fun given =>
        sortedTexts right >>= grade (.ofRule rule) (sharesPoints rule) given := by
  unfold choices
  rw [listed]
  simp only
  cases sortedTexts (chosen answer) with
  | error fault => rfl
  | ok given =>
    cases sortedTexts right with
    | error fault => rfl
    | ok wanted =>
      show Except.map _ (ite _ _ _) = grade _ _ given wanted
      unfold grade
      split
      · cases roundHalfUp (Stakes.ofRule rule).points 2 <;> rfl
      refine (apply_ite (Except.map Score.grade) _ _ _).trans (if_congr Iff.rfl ?_ ?_)
      · cases partialPoints (Stakes.ofRule rule) (given.countP wanted.contains)
          (given.length - given.countP wanted.contains) wanted.length with
        | error fault => rfl
        | ok earned =>
          show Except.map Score.grade (roundHalfUp earned 2 >>= _) = (roundHalfUp earned 2).map (false, ·)
          cases roundHalfUp earned 2 <;> rfl
      · cases (Stakes.ofRule rule).lost with
        | error fault => rfl
        | ok earned =>
          show Except.map Score.grade (roundHalfUp earned 2 >>= _) = (roundHalfUp earned 2).map (false, ·)
          cases roundHalfUp earned 2 <;> rfl

theorem exists_of_choices {rule : Fields} {right : List Value} (listed : Fields.get rule "correctAnswer" = .list right)
    {answer : Value} {score : Score} (ended : choices answer rule = .ok score) :
    ∃ given wanted, sortedTexts (chosen answer) = .ok given ∧ sortedTexts right = .ok wanted ∧
      grade (.ofRule rule) (sharesPoints rule) given wanted = .ok score.grade := by
  have graded := choices_grade listed answer
  rw [ended] at graded
  obtain ⟨given, chosen, graded⟩ := Fault.of_bind_ok graded.symm
  obtain ⟨wanted, expected, graded⟩ := Fault.of_bind_ok graded
  exact ⟨given, wanted, chosen, expected, graded⟩

theorem choices_of_grade {rule : Fields} {right : List Value} (listed : Fields.get rule "correctAnswer" = .list right)
    (answer : Value) {given wanted : List String} {result : Bool × Value} (chosen : sortedTexts (chosen answer) = .ok given)
    (expected : sortedTexts right = .ok wanted)
    (graded : grade (.ofRule rule) (sharesPoints rule) given wanted = .ok result) :
    ∃ score, choices answer rule = .ok score ∧ score.grade = result := by
  have grades := choices_grade listed answer
  rw [chosen, expected] at grades
  have grades := grades.trans graded
  cases found : choices answer rule with
  | error fault =>
    rw [found] at grades
    cases grades
  | ok score =>
    rw [found] at grades
    exact ⟨score, rfl, Except.ok.inj grades⟩

/-- A choice is right if its texts are those of the right answers. -/
theorem grade_correct {stakes : Stakes} {shares : Bool} {given wanted : List String} {result : Bool × Value}
    (ended : grade stakes shares given wanted = .ok result) : result.1 = (given == wanted) := by
  have kept {correct : Bool} {earned : Except Fault Value} (ended : earned.map (correct, ·) = .ok result) :
      result.1 = correct := by
    cases earned with
    | error fault => cases ended
    | ok earned =>
      cases ended
      rfl
  unfold grade at ended
  split at ended
  next same => rw [kept ended, same]
  next other =>
    rw [Bool.not_eq_true] at other
    rw [other]
    split at ended
    · exact kept ended
    · exact kept ended

/-! Sorting forgets the order of texts, and nothing else. -/

def sortTexts (texts : List String) : List String := texts.mergeSort fun first second => decide (first ≤ second)

theorem sortTexts_perm (texts : List String) : (sortTexts texts).Perm texts := List.mergeSort_perm ..

theorem sortTexts_eq_iff {texts others : List String} : sortTexts texts = sortTexts others ↔ texts.Perm others := by
  constructor
  · intro same
    exact (sortTexts_perm texts).symm.trans (same ▸ sortTexts_perm others)
  · intro perm
    have moved := ((sortTexts_perm texts).trans perm).trans (sortTexts_perm others).symm
    exact moved.eq_of_pairwise' (List.pairwise_mergeSort' (· ≤ ·) texts) (List.pairwise_mergeSort' (· ≤ ·) others)

theorem exists_of_sortedTexts {answers : List Value} {sorted : List String} (ended : sortedTexts answers = .ok sorted) :
    ∃ texts, answers.mapM (Json.canonical true) = .ok texts ∧ sorted = sortTexts texts := by
  obtain ⟨texts, written, ended⟩ := Fault.of_bind_ok ended
  cases ended
  exact ⟨texts, written, rfl⟩

/-- Answers in another order, in each of which objects may have their names in another order. -/
def Shuffled (answers others : List Value) : Prop :=
  ∃ arranged, answers.Perm arranged ∧ List.Forall₂ (Relation.ReflTransGen Value.Reordered) arranged others

theorem canonical_of_reordered {answer other : Value} (reordered : Relation.ReflTransGen Value.Reordered answer other) :
    Json.canonical true answer = Json.canonical true other := by
  induction reordered with
  | refl => rfl
  | tail _ step ih => exact ih.trans (Json.canonical_reordered true step)

theorem Shuffled.sortedTexts {answers others : List Value} (shuffled : Shuffled answers others) {sorted : List String}
    (ended : sortedTexts answers = .ok sorted) : sortedTexts others = .ok sorted := by
  obtain ⟨arranged, perm, reordered⟩ := shuffled
  obtain ⟨texts, written, rfl⟩ := exists_of_sortedTexts ended
  have same : arranged.mapM (Json.canonical true) = others.mapM (Json.canonical true) := by
    clear perm
    induction reordered with
    | nil => rfl
    | cons here _ ih => rw [List.mapM_cons, List.mapM_cons, canonical_of_reordered here, ih]
  obtain ⟨_, _, failed, _⟩ | ⟨texts', moved, written', written'', perm⟩ := Fault.mapM_perm (f := Json.canonical true) perm
  · rw [written] at failed
    cases failed
  · rw [written, Except.ok.injEq] at written'
    subst written'
    unfold Scoring.sortedTexts
    rw [← same, written'']
    exact congrArg Except.ok (sortTexts_eq_iff.mpr perm.symm)

/-- A choice is right if it has the canonical texts of the right answers, each as often as these. Neither that nor what
it earns shows in which order the answers are, given or right, or the names inside them. -/
theorem choices_shuffled {answers right : List Value} {rule : Fields} {score : Score}
    (listed : Fields.get rule "correctAnswer" = .list right) (ended : choices (.list answers) rule = .ok score) :
    (∃ given wanted, answers.mapM (Json.canonical true) = .ok given ∧ right.mapM (Json.canonical true) = .ok wanted ∧
      (score.correct = true ↔ ∀ text, given.count text = wanted.count text)) ∧
    ∀ others right', Shuffled answers others → Shuffled right right' →
      ∃ score', choices (.list others) (Keyed.insert rule (.text "correctAnswer") (.list right')) = .ok score' ∧
        score'.correct = score.correct ∧ score'.earned = score.earned := by
  obtain ⟨given, wanted, chosen, expected, graded⟩ := exists_of_choices listed ended
  constructor
  · obtain ⟨texts, written, rfl⟩ := exists_of_sortedTexts chosen
    obtain ⟨texts', written', rfl⟩ := exists_of_sortedTexts expected
    refine ⟨texts, texts', written, written', ?_⟩
    have correct : score.correct = (sortTexts texts == sortTexts texts') := grade_correct graded
    rw [correct, beq_iff_eq, sortTexts_eq_iff, List.perm_iff_count]
  · intro others right' moved moved'
    have kept (name : String) (apart : "correctAnswer" ≠ name) (absent : Value) :
        setting (Keyed.insert rule (.text "correctAnswer") (.list right')) name absent = setting rule name absent := by
      rw [setting, Keyed.find?_insert_text_other _ apart, setting]
    have listed' : Fields.get (Keyed.insert rule (.text "correctAnswer") (.list right')) "correctAnswer" = .list right' := by
      rw [Fields.get, Keyed.find?_insert_text_self]
      rfl
    have graded' : grade (.ofRule (Keyed.insert rule (.text "correctAnswer") (.list right')))
        (sharesPoints (Keyed.insert rule (.text "correctAnswer") (.list right'))) given wanted = .ok score.grade := by
      rw [Stakes.ofRule, sharesPoints, kept _ (by decide), kept _ (by decide), kept _ (by decide)]
      exact graded
    obtain ⟨score', found, same⟩ :=
      choices_of_grade listed' (.list others) (moved.sortedTexts chosen) (moved'.sortedTexts expected) graded'
    obtain ⟨correct, earned⟩ := Prod.mk.inj same
    exact ⟨score', found, correct, earned⟩

namespace Menu

def soup : Fields := [(.text "name", .text "soup"), (.text "size", .text "L")]

/-- What is on the menu, the soup first or between two breads. -/
def right : List Value := [.object soup, .text "bread", .text "bread"]

def order : List Value := [.text "bread", .object soup, .text "bread"]

def order' : List Value := [.text "bread", .object soup.reverse, .text "bread"]

def rule : Fields := [(.text "correctAnswer", .list right)]

end Menu

open Menu in
theorem choices_shuffled_menu : ∃ score score',
    choices (.list right) rule = .ok score ∧ score.correct = true ∧
      choices (.list order') (Keyed.insert rule (.text "correctAnswer") (.list order)) = .ok score' ∧
      score'.correct = score.correct ∧ score'.earned = score.earned := by
  have moved : right.Perm order := .swap ..
  have turned : Value.Reordered (.object soup) (.object soup.reverse) := by
    refine .names (by decide) ?_ (List.reverse_perm soup).symm
    simp [Keyed.Distinct, soup, Scalar.coincides_text]
  have feasible : Feasible (.list right) rule .choices := by
    intro listed known
    cases known
    exact ⟨rfl, 1, 2, by decide, ⟨.int 1, rfl, .int (by decide)⟩, Value.isWithin_zero 1, by decide, by decide⟩
  obtain ⟨score, ended, _⟩ := choices_yields feasible rfl
  obtain ⟨⟨given, wanted, written, written', correct⟩, shuffled⟩ := choices_shuffled rfl ended
  obtain rfl := Except.ok.inj (written.symm.trans written')
  obtain ⟨score', ended', same, earned⟩ := shuffled order' order
    ⟨order, moved, .cons .refl (.cons (.single turned) (.cons .refl .nil))⟩ ⟨order, moved, List.forall₂_same.mpr fun _ _ => .refl⟩
  exact ⟨score, score', ended, correct.mpr fun _ => rfl, ended', same, earned⟩

end Scoring

end FormRules

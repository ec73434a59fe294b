import FormRules.Proofs.PassConsistency
import FormRules.Proofs.SharedReport

/-! Rules are counted once each: every rule or group that was met has passed, failed, was skipped or was left to
scoring, and as many of them failed as there are errors. -/

namespace FormRules

namespace Report

/-- The counts of a report; one that does not count has met no rules. -/
def counts (report : Report) : Tally := report.tally?.getD {}

/-- What became of the rules adds up to how many there are, and each error is the failure of one of them. -/
structure Balanced (report : Report) : Prop where
  total : report.counts.total =
    report.counts.passed + report.counts.failed + report.counts.skipped + report.counts.computed
  failed : report.counts.failed = report.errors.length
  valid : report.valid = .bool (report.counts.failed == 0)

/-- A report that counts, with no rule pending, and with an error for each failure. -/
def Settled (report : Report) : Prop :=
  ∃ tally, report.tally? = some tally ∧ tally.pending = 0 ∧ tally.failed = report.errors.length

variable {report later : Report} {errors : List FieldError}

theorem settled_counting : counting.Settled := ⟨{}, rfl, rfl, rfl⟩

/-- As many rules fail as there are new errors, and none is left pending. -/
theorem Settled.move (settled : report.Settled) (listed : later.errors = report.errors ++ errors)
    (counted : ∃ change, Tally.Moves change 0 errors.length ∧ later.tally? = report.tally?.map change) :
    later.Settled := by
  obtain ⟨tally, counts, pending, failed⟩ := settled
  obtain ⟨change, moves, changed⟩ := counted
  refine ⟨change tally, by rw [changed, counts]; rfl, ?_, ?_⟩
  · rw [moves.pending, pending]
    rfl
  · rw [moves.failed, failed, listed, List.length_append]
    rfl

theorem Settled.merge (first : report.Settled) (second : later.Settled) : (report.merge later).Settled := by
  obtain ⟨tally, counted, pending, failed⟩ := first
  obtain ⟨tally', counted', pending', failed'⟩ := second
  refine ⟨tally.add tally', by simp only [Report.merge, counted, counted', mergeTally, Option.getD_some], ?_, ?_⟩
  · simp only [Tally.pending, Tally.add] at *
    omega
  · simp only [Tally.add, Report.merge, List.length_append]
    omega

theorem Settled.ensureCounting (settled : report.Settled) : report.ensureCounting.Settled := by
  obtain ⟨tally, counted, rest⟩ := settled
  exact ⟨tally, by rw [Report.ensureCounting, counted, Option.getD_some], rest⟩

theorem Settled.isSome (settled : report.Settled) : report.tally?.isSome = true := by
  obtain ⟨tally, counted, _⟩ := settled
  rw [counted, Option.isSome_some]

theorem Settled.balanced (settled : report.Settled) (valid : report.valid = .bool report.errors.isEmpty) :
    report.Balanced := by
  obtain ⟨tally, counted, pending, failed⟩ := settled
  have counts : report.counts = tally := by rw [Report.counts, counted, Option.getD_some]
  constructor
  · rw [counts]
    unfold Tally.pending at pending
    omega
  · rw [counts, failed]
  · rw [valid, counts, failed]
    cases report.errors with
    | nil => rfl
    | cons error errors =>
      have some : ((error :: errors).length : Int) ≠ 0 := by simp only [List.length_cons]; omega
      rw [beq_eq_false_iff_ne.mpr some]
      rfl

end Report

theorem Item.Piece.Filed.settled {source : Source} {piece : Item.Piece} {report : Report}
    (filed : piece.Filed source report) : report.Settled := by
  cases filed with
  | silent => exact Report.settled_counting
  | skipped key reason rules =>
    refine ⟨_, rfl, ?_, rfl⟩
    rw [(Tally.moves_skipAll rules).pending]
    rfl
  | judged name errors told place added =>
    have settled : told.Settled := Report.settled_counting.move added.errors added.counted
    split <;> exact settled

namespace Shared

variable {σ : Type} {shared : Shared σ} {check : LoneCheck σ}

/-- Whether all checks came to an end. -/
def Whole (shared : Shared σ) : Prop := ∀ ended ∈ shared.endings, ended.2 ≠ .broken

/-- Each check that comes to an end settles its rules. -/
theorem next_settled (settled : shared.Whole → shared.report.ensureCounting.Settled) (whole : (shared.next check).Whole) :
    (shared.next check).report.Settled := by
  have before (endings : List (String × Ending)) (ended : (shared.next check).endings = shared.endings ++ endings) :
      shared.Whole := fun ending member => whole ending (ended ▸ List.mem_append_left _ member)
  cases next_checked shared check with
  | broken tally? report ended => exact absurd rfl (whole (check.field, .broken) (by simp [ended]))
  | settled errors outcome named valid listed filed judged counted ended =>
    exact (settled (before _ ended)).move listed counted

theorem after_settled (settled : shared.Whole → shared.report.ensureCounting.Settled) (checks : List (LoneCheck σ))
    (whole : (shared.after checks).Whole) : checks = [] ∨ (shared.after checks).report.Settled := by
  induction checks generalizing shared with
  | nil => exact .inl rfl
  | cons check checks ih =>
    have next : (shared.next check).Whole → (shared.next check).report.Settled := next_settled settled
    rcases ih (fun whole => (next whole).ensureCounting) whole with rfl | last
    · exact .inr (next whole)
    · exact .inr last

end Shared

namespace Pass

variable {σ : Type}

theorem gathers_settled (source : Source) : Gathers source fun _ report => report.Settled :=
  ⟨Report.settled_counting, fun filed => filed.settled, fun first second => first.merge second⟩

/-- The counts of a report account for every rule and every error, whether it is that of a form or of checks that share
it from an empty one on, as long as none of them ends in a fault. -/
theorem counts_balance :
    (∀ (backend : Backend σ) (context : Context) (state : σ) (report : Report) (later : Progress σ),
      (checkForm backend context).run.run { backend := state } = (.ok report, later) →
      report.tally?.isSome = true ∧ report.Balanced) ∧
    ∀ (tally? : Option Tally) (state : σ) (checks : List (LoneCheck σ)), tally? = none ∨ tally? = some {} →
      let last := (Shared.fresh tally? state).after checks
      last.Whole → (checks ≠ [] → last.report.tally?.isSome = true) ∧ last.report.Balanced := by
  constructor
  · intro backend context state report later run
    obtain ⟨_, gathered, _, settled, all, rfl⟩ := checkForm_gathers (gathers_settled _) _ trivial _ _ run
    have consistent := checkForm_consistent backend context _ trivial _ _ run
    have same : (all.addTo gathered).Settled := by
      rw [FormScores.addTo_eq]
      exact settled
    exact ⟨same.isSome, same.balanced consistent.valid⟩
  · intro tally? state checks start last whole
    have accounts : last.Accounts := (Shared.accounts_fresh tally? state).after checks
    have fresh : (Shared.fresh tally? state).report.ensureCounting.Settled := by
      rcases start with rfl | rfl <;> exact Report.settled_counting
    rcases Shared.after_settled (fun _ => fresh) checks whole with rfl | settled
    · refine ⟨fun some => absurd rfl some, ?_⟩
      rcases start with rfl | rfl <;> exact ⟨rfl, rfl, rfl⟩
    · exact ⟨fun _ => settled.isSome, settled.balanced accounts.valid⟩

namespace Counting

def backend : Backend Unit := fun _ rule _ state =>
  match Fields.get rule "type" with
  | .text "email" => (.ok (.failure rule "No"), state)
  | .text "numeric" => (.ok .pass, state)
  | _ => (.error (.backend "down"), state)

def rule (type : String) : Value := .ofFields [("type", .text type)]

def either : Value := .ofFields [("or", .list [rule "email", rule "numeric"])]

def form : Value := .ofFields [("items", .list [
  .ofFields [("name", .text "mail"), ("validationRules", .list [rule "email", rule "url", either])],
  .ofFields [("name", .text "note"), ("visibleIf", .ofFields [("mode", .text "long")]),
    ("validationRules", .list [rule "email"])]])]

def context : Context := { Context.ofData (.ofFields []) with form }

def checks : List (LoneCheck Unit) :=
  [⟨backend, "mail", .text "x", true, context, either⟩, ⟨backend, "mail", .text "x", true, context, rule "url"⟩]

end Counting

open Counting in
/-- A field with a rule that fails, one that cannot be judged and a group, and a field that is hidden; and two checks
that share a report. -/
theorem counts_balance_mail :
    let run := (checkForm backend context).run.run { backend := () }
    let last := (Shared.fresh none ()).after checks
    (run.1.map (·.counts)).toOption = some { total := 4, passed := 1, failed := 2, skipped := 1 } ∧
      (∃ report, run.1 = .ok report ∧ report.tally?.isSome = true ∧ report.Balanced) ∧
      last.report.counts = { total := 2, passed := 1, failed := 1 } ∧
      last.report.tally?.isSome = true ∧ last.report.Balanced := by
  intro run last
  obtain ⟨passes, shared⟩ := counts_balance (σ := Unit)
  have counted : (run.1.map (·.counts)).toOption = some { total := 4, passed := 1, failed := 2, skipped := 1 } := by
    decide +kernel
  have whole : last.Whole := by
    unfold Shared.Whole
    decide +kernel
  obtain ⟨counts, balanced⟩ := shared none () checks (.inl rfl) whole
  refine ⟨counted, ?_, by decide +kernel, counts (List.cons_ne_nil _ _), balanced⟩
  rcases ended : run with ⟨_ | report, later⟩
  · rw [ended] at counted
    cases counted
  · exact ⟨report, rfl, passes backend context () report later ended⟩

end Pass

end FormRules

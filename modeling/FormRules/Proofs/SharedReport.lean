import FormRules.Proofs.FieldReports
import FormRules.Validator

/-! Checks of single rules and groups that share a report. The errors of a field go on being listed, but the last check
of the field decides whether it counts as valid: so the report is at odds with itself where a field has passed a check
after it had failed one. -/

namespace FormRules

/-- A check of a rule or a group for a field, on its own. -/
structure LoneCheck (σ : Type) where
  backend : Backend σ
  field : String
  value : Value
  isRequired : Bool
  context : Context
  rule : Value

/-- How a check ends: in a fault, or with a report in which the field has no new error, or has one. -/
inductive Ending where
  | broken
  | passed
  | failed
deriving DecidableEq

def Ending.of (before : Report) : Except Fault Report → Ending
  | .error _ => .broken
  | .ok after => if after.errors.length = before.errors.length then .passed else .failed

/-- A report that checks share, with how each of them has ended. -/
structure Shared (σ : Type) where
  report : Report
  state : σ
  endings : List (String × Ending) := []

namespace LoneCheck

variable {σ : Type} (check : LoneCheck σ)

def subject : Subject := ⟨.text check.field, check.value, check.isRequired, check.context⟩

def run (report : Report) (state : σ) : Except Fault Report × Report × σ :=
  Pass.checkAlone check.backend check.subject check.rule report state

end LoneCheck

namespace Shared

variable {σ : Type}

def fresh (tally? : Option Tally) (state : σ) : Shared σ := { report := { tally? }, state }

def next (shared : Shared σ) (check : LoneCheck σ) : Shared σ :=
  let (result, report, state) := check.run shared.report shared.state
  { report, state, endings := shared.endings ++ [(check.field, .of shared.report result)] }

/-- What checks leave behind, one after another. -/
def after (shared : Shared σ) (checks : List (LoneCheck σ)) : Shared σ := checks.foldl next shared

end Shared

namespace Pass

variable {σ : Type} (backend : Backend σ) {subject : Subject} {name : String} (named : subject.path = .text name)

include named

/-- A fault in a single rule or group leaves nothing but counts behind. -/
theorem checkAll_single (node : RuleNode) (progress : Progress σ) :
    match (checkAll backend subject [node]).run.run progress with
    | (.ok _, later) => ∃ errors told, progress.report.Told name 0 errors told ∧
        later.report = if errors.isEmpty then told.clearing name else told
    | (.error _, later) => ∃ tally?, later.report = { progress.report with tally? } := by
  rcases run : (checkAll backend subject [node]).run.run progress with ⟨fault | _, later⟩
  · have single : checkNodes backend subject [node] = checkNode backend subject node := by simp [checkNodes]
    have told := checkNode_tells backend named node progress
    rw [checkAll_run backend named, single] at run
    rcases ended : (checkNode backend subject node).run.run progress with ⟨_ | _ | _, between⟩ <;>
      rw [ended] at run told <;> cases run
    exact told
  · exact checkAll_told backend named [node] run

end Pass

namespace Shared

variable {σ : Type} (shared : Shared σ) (check : LoneCheck σ)

/-- What a check does to the report that it shares: one that ends in a fault may leave counts behind and nothing else. -/
inductive Checked (shared : Shared σ) (check : LoneCheck σ) (later : Shared σ) : Prop
  | broken (tally? : Option Tally) (report : later.report = { shared.report with tally? })
      (ended : later.endings = shared.endings ++ [(check.field, .broken)])
  | settled (errors : List FieldError) (outcome : FieldOutcome)
      (named : ∀ error ∈ errors, error.field = .text check.field)
      (valid : later.report.valid = if errors.isEmpty then shared.report.valid else .bool false)
      (listed : later.report.errors = shared.report.errors ++ errors)
      (filed : later.report.fields = Keyed.insert shared.report.fields (.text check.field) outcome)
      (judged : outcome.valid = .bool errors.isEmpty)
      (counted : ∃ change, Tally.Moves change 0 errors.length ∧
        later.report.tally? = shared.report.ensureCounting.tally?.map change)
      (ended : later.endings = shared.endings ++ [(check.field, if errors.isEmpty then .passed else .failed)])

theorem next_checked : shared.Checked check (shared.next check) := by
  have named : check.subject.path = .text check.field := rfl
  have single := Pass.checkAll_single check.backend named (RuleNode.ofValue check.rule)
    { backend := shared.state, report := shared.report.ensureCounting }
  revert single
  unfold next LoneCheck.run Pass.checkAlone
  simp only
  rcases (Pass.checkAll check.backend check.subject [RuleNode.ofValue check.rule]).run.run _ with ⟨_ | _, later⟩
  · rintro ⟨tally?, same⟩
    exact .broken tally? same rfl
  · rintro ⟨errors, told, added, same⟩
    simp only [FormScores.addComputed_fold, same]
    cases errors with
    | nil =>
      let held := (Keyed.find? told.fields (.text check.field)).getD {}
      let outcome := { held with valid := .bool true, skipped := .bool false }
      have filed := congrArg (Keyed.insert · (.text check.field) outcome) added.fields
      refine .settled [] outcome added.named added.valid added.errors filed rfl added.counted ?_
      simp [Ending.of, Report.clearing, added.errors, Report.ensureCounting]
    | cons error errors =>
      have some : error :: errors ≠ [] := List.cons_ne_nil _ _
      refine .settled (error :: errors) _ added.named added.valid added.errors
        (added.fields.trans (Report.foldl_addToField _ _ some)) rfl added.counted ?_
      simp [Ending.of, added.errors, Report.ensureCounting]

/-- How the last check of a field has ended that came to an end. -/
def lastEnding? (endings : List (String × Ending)) (field : String) : Option Ending :=
  ((endings.filter fun (other, ending) => other == field && ending != .broken).getLast?).map (·.2)

theorem lastEnding?_concat (endings : List (String × Ending)) (other : String) (ending : Ending) (field : String) :
    lastEnding? (endings ++ [(other, ending)]) field =
      if other = field ∧ ending ≠ .broken then some ending else lastEnding? endings field := by
  unfold lastEnding?
  rw [List.filter_append]
  by_cases counts : other = field ∧ ending ≠ .broken
  · simp [counts]
  · have left : ([(other, ending)].filter fun (other, ending) => other == field && ending != .broken) = [] := by
      simpa using counts
    rw [left, List.append_nil, if_neg counts]

theorem mem_of_lastEnding? {endings : List (String × Ending)} {field : String} {ending : Ending}
    (last : lastEnding? endings field = some ending) : (field, ending) ∈ endings := by
  obtain ⟨entry, found, rfl⟩ := Option.map_eq_some_iff.mp last
  obtain ⟨member, counts⟩ := List.mem_filter.mp (List.mem_of_getLast? found)
  rw [Bool.and_eq_true, beq_iff_eq] at counts
  rw [← counts.1]
  exact member

def standing (fields : Keyed FieldOutcome) (field : String) : Value :=
  ((Keyed.find? fields (.text field)).map (·.valid)).getD (.bool true)

theorem standing_insert (fields : Keyed FieldOutcome) (other : String) (outcome : FieldOutcome) (field : String) :
    standing (Keyed.insert fields (.text other) outcome) field =
      if other = field then outcome.valid else standing fields field := by
  unfold standing
  rw [Keyed.find?_insert, Scalar.coincides_text]
  by_cases same : other = field <;> simp [same]

/-- What a shared report says goes by how the checks have ended. -/
structure Accounts (shared : Shared σ) : Prop where
  texts : ∀ entry ∈ shared.report.fields, ∃ name, entry.1 = .text name
  distinct : shared.report.fields.Distinct
  named : ∀ error ∈ shared.report.errors, ∃ name, error.field = .text name
  valid : shared.report.valid = .bool shared.report.errors.isEmpty
  listed : ∀ field, shared.report.errorsOf (.text field) = [] ↔ (field, .failed) ∉ shared.endings
  judged : ∀ field, standing shared.report.fields field = .bool (lastEnding? shared.endings field != some .failed)

theorem accounts_fresh (tally? : Option Tally) (state : σ) : (fresh tally? state).Accounts where
  texts := List.forall_mem_nil _
  distinct := .nil
  named := List.forall_mem_nil _
  valid := rfl
  listed := fun _ => ⟨fun _ => List.not_mem_nil, fun _ => rfl⟩
  judged := fun _ => rfl

variable {shared check} {later : Shared σ}

theorem filter_named_eq_nil {errors : List FieldError} {name : String}
    (named : ∀ error ∈ errors, error.field = .text name) (field : String) :
    errors.filter (·.field.same (.text field)) = [] ↔ (name = field → errors = []) := by
  rw [List.filter_eq_nil_iff]
  constructor
  · rintro apart rfl
    apply List.eq_nil_iff_forall_not_mem.mpr
    intro error member
    apply apart error member
    rw [named error member, Value.same_text, beq_self_eq_true]
  · intro none error member same
    rw [named error member, Value.same_text, beq_iff_eq] at same
    rw [none same] at member
    cases member

theorem Accounts.broken (accounts : shared.Accounts) (tally? : Option Tally)
    (report : later.report = { shared.report with tally? })
    (ended : later.endings = shared.endings ++ [(check.field, .broken)]) : later.Accounts where
  texts := report ▸ accounts.texts
  distinct := report ▸ accounts.distinct
  named := report ▸ accounts.named
  valid := report ▸ accounts.valid
  listed := by
    intro field
    have kept := accounts.listed field
    simp [report, ended, Report.errorsOf] at kept ⊢
    exact kept
  judged := by
    intro field
    rw [report, ended, lastEnding?_concat, if_neg (fun last => last.2 rfl)]
    exact accounts.judged field

theorem Accounts.next (accounts : shared.Accounts) : (shared.next check).Accounts := by
  cases next_checked shared check with
  | broken tally? report ended => exact accounts.broken tally? report ended
  | settled errors outcome named valid listed filed judged counted ended =>
    constructor
    case texts =>
      rw [filed]
      intro entry member
      rcases Keyed.key_of_mem_insert member with ⟨held, among, same⟩ | same
      · exact same ▸ accounts.texts held among
      · exact ⟨check.field, same⟩
    case distinct =>
      rw [filed]
      exact accounts.distinct.insert _ _
    case named =>
      rw [listed]
      exact List.forall_mem_append.mpr ⟨accounts.named, fun error member => ⟨check.field, named error member⟩⟩
    case valid =>
      rw [valid, listed, accounts.valid]
      cases errors <;> simp
    case listed =>
      intro field
      rw [ended, Report.errorsOf, listed, List.filter_append, List.append_eq_nil_iff, List.mem_append, not_or]
      apply and_congr (accounts.listed field)
      rw [filter_named_eq_nil named, List.mem_singleton, Prod.mk.injEq, eq_comm]
      cases errors <;> simp
    case judged =>
      -- the last check of a field overrides what was said of it, and leaves other fields alone
      intro field
      rw [filed, standing_insert, ended, lastEnding?_concat, judged, accounts.judged]
      by_cases same : check.field = field
      · cases errors <;> simp [same]
      · rw [if_neg same, if_neg (fun last => same last.1)]

theorem Accounts.after (accounts : shared.Accounts) (checks : List (LoneCheck σ)) : (shared.after checks).Accounts := by
  induction checks generalizing shared with
  | nil => exact accounts
  | cons check checks ih => exact ih accounts.next

theorem Accounts.all_valid (accounts : shared.Accounts) :
    (∀ entry ∈ shared.report.fields, entry.2.valid = .bool true) ↔
      ∀ field, lastEnding? shared.endings field ≠ some .failed := by
  constructor
  · intro all field last
    have judged := accounts.judged field
    rw [last] at judged
    unfold standing at judged
    cases found : Keyed.find? shared.report.fields (.text field) with
    | none =>
      rw [found] at judged
      cases judged
    | some outcome =>
      obtain ⟨held, member, -⟩ := Keyed.exists_mem_of_find? found
      rw [found, Option.map_some, Option.getD_some, all _ member] at judged
      cases judged
  · intro none entry member
    obtain ⟨field, text⟩ := accounts.texts entry member
    have same : entry.1.coincides (.text field) = true := by rw [text, Scalar.coincides_text, beq_self_eq_true]
    have judged := accounts.judged field
    rw [standing, accounts.distinct.find?_of_mem member same] at judged
    rw [← Option.getD_some (a := entry.2.valid) (b := .bool true), ← Option.map_some, judged]
    have passed := none field
    simpa using passed

theorem Accounts.no_errors (accounts : shared.Accounts) :
    shared.report.errors = [] ↔ ∀ field, (field, .failed) ∉ shared.endings := by
  constructor
  · intro none field
    apply (accounts.listed field).mp
    rw [Report.errorsOf, none, List.filter_nil]
  · intro none
    apply List.eq_nil_iff_forall_not_mem.mpr
    intro error member
    obtain ⟨field, named⟩ := accounts.named error member
    have listed := (accounts.listed field).mpr (none field)
    apply List.filter_eq_nil_iff.mp listed error member
    rw [named, Value.same_text, beq_self_eq_true]

theorem Accounts.isValid (accounts : shared.Accounts) (field : String) :
    shared.report.isValid (.text field) = .ok (.bool (lastEnding? shared.endings field != some .failed)) :=
  congrArg Except.ok (accounts.judged field)

/-- Checks that share a report keep its list of errors and its verdict in step with all of their failures, but the
verdict of a field only with the last check of the field. So the two agree on a field just if its last check failed
or none did, and the report agrees with its fields just if this is so of some field or of all of them. -/
theorem after_accounts (tally? : Option Tally) (state : σ) (checks : List (LoneCheck σ)) :
    let last := (fresh tally? state).after checks
    (∀ field, last.report.errorsOf (.text field) = [] ↔ (field, .failed) ∉ last.endings) ∧
    (∀ field, last.report.isValid (.text field) = .ok (.bool (lastEnding? last.endings field != some .failed))) ∧
    (∀ field, last.report.isValid (.text field) = .ok (.bool (last.report.errorsOf (.text field)).isEmpty) ↔
      lastEnding? last.endings field = some .failed ∨ (field, .failed) ∉ last.endings) ∧
    (last.report.valid = .bool true ↔ ∀ field, (field, .failed) ∉ last.endings) ∧
    ((last.report.valid = .bool true ↔ ∀ entry ∈ last.report.fields, entry.2.valid = .bool true) ↔
      (∃ field, lastEnding? last.endings field = some .failed) ∨ ∀ field, (field, .failed) ∉ last.endings) := by
  intro last
  have accounts : last.Accounts := (accounts_fresh tally? state).after checks
  have among (field : String) : lastEnding? last.endings field = some .failed → (field, .failed) ∈ last.endings :=
    mem_of_lastEnding?
  have valid : last.report.valid = .bool true ↔ ∀ field, (field, .failed) ∉ last.endings := by
    rw [accounts.valid, ← accounts.no_errors, ← List.isEmpty_iff]
    simp
  refine ⟨accounts.listed, accounts.isValid, fun field => ?_, valid, ?_⟩
  · have listed : _ ↔ (field, .failed) ∉ last.endings := List.isEmpty_iff.trans (accounts.listed field)
    rw [accounts.isValid, ← listed]
    by_cases failed : lastEnding? last.endings field = some .failed
    · have some : (last.report.errorsOf (.text field)).isEmpty = false :=
        Bool.eq_false_iff.mpr fun none => listed.mp none (among field failed)
      simp [failed, some]
    · have passed : (lastEnding? last.endings field != some .failed) = true := bne_iff_ne.mpr failed
      cases none : (last.report.errorsOf (.text field)).isEmpty <;> simp [failed, passed]
  · rw [valid, accounts.all_valid]
    constructor
    · intro agree
      by_cases failed : ∃ field, lastEnding? last.endings field = some .failed
      · exact .inl failed
      · exact .inr (agree.mpr (not_exists.mp failed))
    · rintro (⟨field, failed⟩ | none)
      · exact ⟨fun none => absurd (among field failed) (none field), fun none => absurd failed (none field)⟩
      · exact ⟨fun _ field failed => none field (among field failed), fun _ => none⟩

/-- A value that is no address, and then one that is a number: the field is valid again, with its error. -/
theorem passed_after_failed :
    let check (type value : String) : LoneCheck Rule.Session :=
      { backend := Rule.check (Validator.means {} [] .offline), field := "f", value := .text value, isRequired := true
        context := .ofData (.object []), rule := .ofFields [("type", .text type)] }
    let last := (fresh none {}).after [check "email" "x", check "numeric" "5"]
    ((last.report.isValid (.text "f")).map (·.truthy)).toOption = some true ∧
      (last.report.errorsOf (.text "f")).length = 1 ∧
      last.report.valid.truthy = false ∧
      (last.report.fields.all fun entry => entry.2.valid.truthy) = true := by
  decide +kernel

end Shared

end FormRules

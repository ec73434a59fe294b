import FormRules.Callback.Registry
import FormRules.Proofs.ValueEquality

/-! Fields that have to match. Strict equality is an equivalence of values that hold no NaN, so comparing all values
with the first one tells whether any two of them are equal, and their order makes no difference. -/

namespace FormRules

namespace Compare

variable {first second third : Value}

theorem strictlyEqual_iff : strictlyEqual first second = true ↔
    (first.kind == .bool) = (second.kind == .bool) ∧ first.same second = true := by
  rw [strictlyEqual, Bool.and_eq_true, beq_iff_eq]

theorem strictlyEqual_self (distinct : first.HasDistinctKeys) (known : first.IsNaNFree) : strictlyEqual first first = true :=
  strictlyEqual_iff.mpr ⟨rfl, Value.same_self distinct known.known⟩

theorem strictlyEqual_swapped (left : first.HasDistinctKeys) (right : second.HasDistinctKeys)
    (equal : strictlyEqual first second = true) : strictlyEqual second first = true := by
  obtain ⟨kinds, same⟩ := strictlyEqual_iff.mp equal
  exact strictlyEqual_iff.mpr ⟨kinds.symm, Value.same_swapped left right same⟩

theorem strictlyEqual_trans (left : strictlyEqual first second = true) (right : strictlyEqual second third = true) :
    strictlyEqual first third = true := by
  obtain ⟨kinds, same⟩ := strictlyEqual_iff.mp left
  obtain ⟨kinds', same'⟩ := strictlyEqual_iff.mp right
  exact strictlyEqual_iff.mpr ⟨kinds.trans kinds', Value.same_trans same same'⟩

end Compare

namespace Callback

open Compare (strictlyEqual)

/-- Values that each hold no key twice and no NaN. -/
def AreDefinite (values : Fields) : Prop := ∀ entry ∈ values, entry.2.HasDistinctKeys ∧ entry.2.IsNaNFree

/-- Whether any two of some values are strictly equal. -/
def AllMatch (values : Fields) : Prop := ∀ first ∈ values, ∀ second ∈ values, strictlyEqual first.2 second.2 = true

/-- Values match if all later ones are equal to the first one. -/
theorem allMatch_cons {first : Scalar × Value} {rest : Fields} (definite : AreDefinite (first :: rest)) :
    AllMatch (first :: rest) ↔ ∀ entry ∈ rest, strictlyEqual entry.2 first.2 = true := by
  constructor
  · intro all entry member
    exact all entry (List.mem_cons_of_mem _ member) first List.mem_cons_self
  · intro each
    obtain ⟨⟨distinct, known⟩, others⟩ := List.forall_mem_cons.mp definite
    have toFirst : ∀ entry ∈ first :: rest, strictlyEqual entry.2 first.2 = true :=
      List.forall_mem_cons.mpr ⟨Compare.strictlyEqual_self distinct known, each⟩
    intro entry member other member'
    have back := Compare.strictlyEqual_swapped (definite other member').1 distinct (toFirst other member')
    exact Compare.strictlyEqual_trans (toFirst entry member) back

theorem allEqual_iff {values : Fields} (several : 2 ≤ values.length) (definite : AreDefinite values) (context : Context) :
    ∃ answer, allEqual (.object values) context = .ok (.bool answer) ∧ (answer = true ↔ AllMatch values) := by
  match values with
  | first :: second :: rest =>
    refine ⟨((second :: rest).map (·.2)).all fun value => strictlyEqual value first.2, rfl, ?_⟩
    rw [allMatch_cons definite, List.all_map, List.all_eq_true]
    rfl
  | [_] | [] => simp at several

theorem allMatch_perm {values others : Fields} (perm : values.Perm others) : AllMatch values ↔ AllMatch others := by
  unfold AllMatch
  simp only [perm.mem_iff]

/-- Fields match just if any two of their values are strictly equal, in whatever order they are given, and strict
equality is an equivalence of values with no key twice and no NaN. -/
theorem allEqual_matches {name : String} (called : name ∈ ["passwordMatch", "emailMatch"]) {values : Fields}
    (several : 2 ≤ values.length) (definite : AreDefinite values) (context : Context) :
    (∃ callback answer, Registry.standard.find? (.text name) = some callback ∧
      (answer = true ↔ AllMatch values) ∧
      ∀ others, values.Perm others → callback (.object others) context = .ok (.bool answer)) ∧
    Equivalence fun first second : { value : Value // value.HasDistinctKeys ∧ value.IsNaNFree } =>
      strictlyEqual first.1 second.1 = true := by
  have found : Registry.standard.find? (.text name) = some allEqual := by
    simp only [List.mem_cons, List.not_mem_nil, or_false] at called
    obtain rfl | rfl := called <;> rfl
  obtain ⟨answer, _, matched⟩ := allEqual_iff several definite context
  refine ⟨⟨allEqual, answer, found, matched, fun others perm => ?_⟩, ?_, ?_, ?_⟩
  · have definite' : AreDefinite others := fun entry member => definite entry (perm.mem_iff.mpr member)
    obtain ⟨answer', ended, matched'⟩ := allEqual_iff (perm.length_eq ▸ several) definite' context
    rw [ended, Bool.eq_iff_iff.mpr (matched.trans ((allMatch_perm perm).trans matched'.symm))]
  · exact fun value => Compare.strictlyEqual_self value.2.1 value.2.2
  · exact fun {first second} => Compare.strictlyEqual_swapped first.2.1 second.2.1
  · exact Compare.strictlyEqual_trans

namespace Copies

/-- The same choice twice, its second copy with a whole number for a floating point one and its names in another order. -/
def entered : Fields := [
  (.text "choice", .list [.object [(.text "size", .float (.ofRatio false 2 1)), (.text "paid", .bool true)]]),
  (.text "again", .list [.object [(.text "paid", .int 1), (.text "size", .int 2)]])]

theorem entered_definite : AreDefinite entered := by
  have known : (Number.Binary64.ofRatio false 2 1).isNaN = false := by decide +kernel
  simp [AreDefinite, entered, Keyed.Distinct, Scalar.coincides_text, Scalar.isNaN, Number.isNaN, known]

end Copies

open Copies in
theorem allEqual_matches_copies : AreDefinite entered ∧ AllMatch entered ∧
    ∃ callback, Registry.standard.find? (.text "passwordMatch") = some callback ∧
      callback (.object entered.reverse) (Context.ofData .null) = .ok (.bool true) := by
  have all : AllMatch entered := by
    unfold AllMatch
    decide +kernel
  obtain ⟨⟨callback, answer, found, matched, reordered⟩, _⟩ :=
    @allEqual_matches "passwordMatch" List.mem_cons_self entered (by decide) entered_definite (Context.ofData .null)
  obtain rfl : answer = true := matched.mpr all
  exact ⟨entered_definite, all, callback, found, reordered _ (List.reverse_perm entered).symm⟩

end Callback

end FormRules

import FormRules.Proofs.Agreement
import FormRules.Proofs.ValueEquality

/-! Comparisons read from the other side. A value is equal to another one, less than it or at most as great, just if the
other one is equal to it, greater or at least as great; and where reading a value as a number fails, it fails alike. -/

namespace FormRules

namespace Comparison

/-- What a comparison of two values is, read from the second one. -/
def converse : Comparison → Comparison
  | .less => .greater
  | .lessEqual => .greaterEqual
  | .greater => .less
  | .greaterEqual => .lessEqual

theorem ofOrder_converse (comparison : Comparison) (before equal after : Bool) :
    comparison.converse.ofOrder after equal before = comparison.ofOrder before equal after := by
  cases comparison <;> rfl

theorem numbers_converse (comparison : Comparison) (first second : Number) :
    comparison.converse.numbers second first = comparison.numbers first second := by
  rw [numbers, Number.equal_comm, ofOrder_converse, numbers]

theorem texts_converse (comparison : Comparison) (first second : String) :
    comparison.converse.texts second first = comparison.texts first second := by
  rw [texts, Bool.beq_comm, ofOrder_converse, texts]

end Comparison

theorem Moment.compare_converse (comparison : Comparison) (first second : Moment) :
    Alike ((Scalar.moment first).compare comparison (.moment second))
      ((Scalar.moment second).compare comparison.converse (.moment first)) := by
  simp only [Scalar.compare, Scalar.number?, earlier?]
  by_cases sort : first.hasOffset = second.hasOffset
  · rw [sort, beq_self_eq_true, Moment.equal_comm second]
    exact congrArg some (comparison.ofOrder_converse ..).symm
  · rw [beq_false_of_ne sort, beq_false_of_ne (Ne.symm sort)]
    rfl

/-- Plain data has the same order from either side, or none. -/
theorem Scalar.compare_converse (comparison : Comparison) (first second : Scalar) :
    Alike (first.compare comparison second) (second.compare comparison.converse first) := by
  cases first <;> cases second
  case bool.bool | bool.number | number.bool | number.number => exact congrArg some (comparison.numbers_converse ..).symm
  case text.text a b => exact congrArg some (comparison.texts_converse a b).symm
  case date.date a b =>
    show some _ = some _
    rw [Bool.beq_comm (a := b), comparison.ofOrder_converse]
  case moment.moment a b => exact Moment.compare_converse comparison a b
  all_goals rfl

namespace Value

/-- Lists that have an order have it from the same two items on, whichever of them comes first. -/
theorem compareItems_converse (comparison : Comparison) {items others : List Value}
    (left : ∀ item ∈ items, item.HasDistinctKeys) (right : ∀ other ∈ others, other.HasDistinctKeys)
    (each : ∀ item ∈ items, ∀ other ∈ others,
      Alike (item.compare comparison other) (other.compare comparison.converse item)) :
    Alike (compareItems comparison items others) (compareItems comparison.converse others items) := by
  induction items generalizing others with
  | nil => cases others <;> cases comparison <;> rfl
  | cons item items ih =>
    cases others with
    | nil => cases comparison <;> rfl
    | cons other others =>
      obtain ⟨here, left⟩ := List.forall_mem_cons.mp left
      obtain ⟨there, right⟩ := List.forall_mem_cons.mp right
      rw [compareItems, compareItems, coincides_comm there here]
      split
      · refine ih left right fun item member other member' => ?_
        exact each item (List.mem_cons_of_mem _ member) other (List.mem_cons_of_mem _ member')
      · exact each item List.mem_cons_self other List.mem_cons_self

theorem compare_converse (comparison : Comparison) {first second : Value} (left : first.HasDistinctKeys)
    (right : second.HasDistinctKeys) :
    Alike (first.compare comparison second) (second.compare comparison.converse first) := by
  induction first using Value.nested_induction generalizing second with
  | scalar a =>
    cases second with
    | scalar b => exact Scalar.compare_converse comparison a b
    | _ => rfl
  | object fields | handle name => cases second <;> rfl
  | list items ih =>
    cases second with
    | list others =>
      rw [hasDistinctKeys_list] at left right
      refine compareItems_converse comparison left right fun item member other member' => ?_
      exact ih item member (left item member) (right other member')
    | _ => rfl

end Value

namespace Compare

/-- Values that cannot be read as numbers are whole numbers that are too large. -/
theorem number?_fault {value : Value} {fault : Fault} (failed : number? value = .error fault) :
    fault = .overflow .float := by
  unfold number? at failed
  split at failed
  · cases failed
  · split at failed
    next n _ =>
      unfold Number.toFloat at failed
      split at failed <;> cases failed
      rfl
    next => cases failed
  · cases failed

/-- Two values may be read as numbers in either order. -/
theorem reads_swapped {α : Type} (first second : Value)
    {next other : Option Number.Binary64 → Option Number.Binary64 → Except Fault α}
    (same : ∀ x y, next x y = other y x) :
    (number? first >>= fun x => number? second >>= next x) = number? second >>= fun y => number? first >>= other y := by
  cases here : number? first with
  | error fault =>
    cases there : number? second with
    | error fault' => rw [number?_fault here, number?_fault there]; rfl
    | ok y => rfl
  | ok x =>
    cases there : number? second with
    | error fault' => rfl
    | ok y => exact same x y

theorem equalNumbers_comm (first second : Option Number.Binary64) :
    equalNumbers first second = equalNumbers second first := by
  cases first <;> cases second <;> first | rfl | exact Number.equal_comm ..

variable {left right : Value} (distinct : left.HasDistinctKeys) (distinct' : right.HasDistinctKeys)

include distinct distinct'

/-- Loose equality holds from both sides, or fails from both. -/
theorem looselyEqual_comm : looselyEqual left right = looselyEqual right left := by
  have read : (do return equalNumbers (← number? left) (← number? right) : Except Fault Bool) =
      (do return equalNumbers (← number? right) (← number? left)) :=
    reads_swapped left right fun x y => congrArg Except.ok (equalNumbers_comm x y)
  unfold looselyEqual
  rw [Bool.or_comm, Bool.and_comm left.isNull, Bool.beq_comm (a := left.kind), Bool.and_comm (isReadable left.kind),
    Value.same_comm distinct distinct', read]

/-- What an order says is said from the other side by its converse. -/
theorem ordered_converse (comparison : Comparison) :
    ordered comparison left right = ordered comparison.converse right left := by
  unfold ordered
  rw [Bool.or_comm]
  split
  · refine reads_swapped left right fun x y => ?_
    cases x <;> cases y <;> first | rfl | exact congrArg Except.ok (comparison.numbers_converse ..).symm
  · obtain ⟨_, here, there⟩ | ⟨_, _, here, there⟩ := (Value.compare_converse comparison distinct distinct').same_or_faults
    · rw [here, there]
    · rw [here, there]

/-- Whether two values are equal shows from either side, and which of them is less or as great at most; the answer is
the same from both sides, and so is the fault where there is no answer. -/
theorem holdsBy_swapped : holdsBy (.text "==") left right = holdsBy (.text "==") right left ∧
    holdsBy (.text "!=") left right = holdsBy (.text "!=") right left ∧
    holdsBy (.text "<") left right = holdsBy (.text ">") right left ∧
    holdsBy (.text "<=") left right = holdsBy (.text ">=") right left :=
  ⟨looselyEqual_comm distinct distinct', congrArg (Except.map not) (looselyEqual_comm distinct distinct'),
    ordered_converse distinct distinct' .less, ordered_converse distinct distinct' .lessEqual⟩

omit distinct distinct'

namespace Baskets

def first : Value := .list [.object [(.text "code", .text "nan"), (.text "count", .int 2)], .int 3]

def second : Value :=
  .list [.object [(.text "count", .float (.ofRatio false 2 1)), (.text "code", .text "nan")], .int 4]

theorem first_distinct : first.HasDistinctKeys := by
  simp [first, Keyed.Distinct, Scalar.coincides_text]

theorem second_distinct : second.HasDistinctKeys := by
  simp [second, Keyed.Distinct, Scalar.coincides_text]

end Baskets

open Baskets in
theorem holdsBy_swapped_baskets : first.HasDistinctKeys ∧ second.HasDistinctKeys ∧
    holdsBy (.text "<") first second = .ok true ∧ holdsBy (.text ">") second first = .ok true := by
  have less : holdsBy (.text "<") first second = .ok true := ok_of_toOption (by decide +kernel)
  obtain ⟨_, _, greater, _⟩ := holdsBy_swapped first_distinct second_distinct
  exact ⟨first_distinct, second_distinct, less, greater.symm.trans less⟩

end Compare

end FormRules

import FormRules.Proofs.ComparisonSides
import FormRules.Proofs.WholeForms

/-! Comparisons of whole numbers. Whether they are equal is decided exactly, but their order is that of their floating
point forms: operators agree on two whole numbers just if both have such a form, and different ones if they differ. -/

namespace FormRules

namespace Compare

/-- The operators agree on two values: each of them has an answer, the first value is either less than the second one or
equal to it or greater, and the other two orders are what these say. -/
structure Agree (left right : Value) : Prop where
  answered : ∀ operator, ∃ answer, holdsBy operator left right = .ok answer
  decided : ∃ less equal greater : Bool, holdsBy (.text "<") left right = .ok less ∧
    holdsBy (.text "==") left right = .ok equal ∧ holdsBy (.text ">") left right = .ok greater ∧
    [less, equal, greater].count true = 1 ∧
    holdsBy (.text ">=") left right = .ok (greater || equal) ∧ holdsBy (.text "<=") left right = .ok (less || equal)

theorem count_orders (a b : Int) : [decide (a < b), decide (a = b), decide (b < a)].count true = 1 := by
  obtain less | rfl | more := Int.lt_trichotomy a b
  · simp [less, Int.ne_of_lt less, Int.le_of_lt less]
  · simp
  · simp [more, Int.ne_of_gt more, Int.le_of_lt more]

section Wholes

variable (a b : Int)

theorem looselyEqual_int : looselyEqual (.int a) (.int b) = .ok (decide (a = b)) := by
  show Except.ok ((Value.int a).same (.int b)) = _
  rw [Value.same]
  exact congrArg Except.ok (Number.equal_int a b)

theorem ordered_int (comparison : Comparison) : ordered comparison (.int a) (.int b) = do
    return comparison.numbers (.float (← (Number.int a).toFloat)) (.float (← (Number.int b).toFloat)) := by
  show ((Number.int a).toFloat.map some >>= fun x => (Number.int b).toFloat.map some >>= fun y => _) = _
  cases (Number.int a).toFloat with
  | error fault => rfl
  | ok x => cases (Number.int b).toFloat <;> rfl

end Wholes

section Forms

variable {a b : Int} {x y : Number.Binary64} (left : (Number.int a).toFloat = .ok x)
  (right : (Number.int b).toFloat = .ok y)

include left right

/-- The order of whole numbers is that of their forms. -/
theorem ordered_of_forms (comparison : Comparison) :
    ordered comparison (.int a) (.int b) = .ok (comparison.ofOrder (decide (Number.formUnits a < Number.formUnits b))
      (decide (Number.formUnits a = Number.formUnits b)) (decide (Number.formUnits b < Number.formUnits a))) := by
  rw [ordered_int, left, right]
  exact congrArg Except.ok
    (Number.numbers_of_extent? (Number.extent?_of_toFloat left) (Number.extent?_of_toFloat right) comparison)

theorem answered_of_forms (operator : Value) : ∃ answer, holdsBy operator (.int a) (.int b) = .ok answer := by
  unfold holdsBy
  split
  next operator _ =>
    cases operator with
    | equal => exact ⟨_, looselyEqual_int a b⟩
    | unequal => exact ⟨_, congrArg (Except.map not) (looselyEqual_int a b)⟩
    | order comparison => exact ⟨_, ordered_of_forms left right comparison⟩
    | isIn | notIn | contains | startsWith | endsWith => exact ⟨_, rfl⟩
  next => exact ⟨_, rfl⟩

/-- Operators agree on whole numbers whose forms are different if they are. -/
theorem agree_of_forms (same : (Number.float x).equal (.float y) = true → a = b) : Agree (.int a) (.int b) := by
  have equal : decide (a = b) = decide (Number.formUnits a = Number.formUnits b) := by
    rw [Number.equal_of_toFloat left right, decide_eq_true_eq] at same
    exact decide_eq_decide.mpr ⟨congrArg Number.formUnits, same⟩
  have decided : looselyEqual (.int a) (.int b) = .ok (decide (Number.formUnits a = Number.formUnits b)) := by
    rw [looselyEqual_int, equal]
  have orders := ordered_of_forms left right
  exact ⟨answered_of_forms left right, _, _, _, orders .less, decided, orders .greater, count_orders _ _,
    orders .greaterEqual, orders .lessEqual⟩

end Forms

theorem exists_of_ordered {a b : Int} {comparison : Comparison} {answer : Bool}
    (ended : ordered comparison (.int a) (.int b) = .ok answer) :
    ∃ x y, (Number.int a).toFloat = .ok x ∧ (Number.int b).toFloat = .ok y ∧
      answer = comparison.ofOrder (decide (Number.formUnits a < Number.formUnits b))
        (decide (Number.formUnits a = Number.formUnits b)) (decide (Number.formUnits b < Number.formUnits a)) := by
  obtain ⟨x, left, rest⟩ := Fault.of_bind_ok (ordered_int a b comparison ▸ ended)
  obtain ⟨y, right, _⟩ := Fault.of_bind_ok rest
  exact ⟨x, y, left, right, Except.ok.inj (ended.symm.trans (ordered_of_forms left right comparison))⟩

theorem forms_of_agree {a b : Int} (agree : Agree (.int a) (.int b)) : ∃ x y, (Number.int a).toFloat = .ok x ∧
    (Number.int b).toFloat = .ok y ∧ ((Number.float x).equal (.float y) = true → a = b) := by
  obtain ⟨less, equal, greater, before, decided, after, one, _⟩ := agree.decided
  obtain ⟨x, y, left, right, rfl⟩ := exists_of_ordered (show ordered .less _ _ = _ from before)
  obtain ⟨_, _, _, _, rfl⟩ := exists_of_ordered (show ordered .greater _ _ = _ from after)
  refine ⟨x, y, left, right, fun same => ?_⟩
  rw [Number.equal_of_toFloat left right, decide_eq_true_eq] at same
  by_cases whole : a = b
  · exact whole
  · -- Equal forms are in no order, so none of the three holds of different numbers.
    have decided : looselyEqual (.int a) (.int b) = .ok equal := decided
    rw [looselyEqual_int, decide_eq_false whole] at decided
    cases decided
    simp [Comparison.ofOrder, same] at one

/-! The order of whole numbers is not told the wrong way round. -/

theorem ordered_of_le {a b : Int} (less : a ≤ b) : ordered .greater (.int a) (.int b) ≠ .ok true ∧
    ordered .lessEqual (.int a) (.int b) ≠ .ok false := by
  have forms := Number.formUnits_mono less
  constructor
  · intro ended
    obtain ⟨_, _, _, _, told⟩ := exists_of_ordered ended
    have more : Number.formUnits b < Number.formUnits a := of_decide_eq_true told.symm
    omega
  · intro ended
    obtain ⟨_, _, _, _, told⟩ := exists_of_ordered ended
    simp only [Comparison.ofOrder, Bool.false_eq, Bool.or_eq_false_iff, decide_eq_false_iff_not] at told
    omega

theorem ordered_of_ge {a b : Int} (more : b ≤ a) : ordered .less (.int a) (.int b) ≠ .ok true ∧
    ordered .greaterEqual (.int a) (.int b) ≠ .ok false := by
  rw [ordered_converse (.scalar _) (.scalar _) .less, ordered_converse (.scalar _) (.scalar _) .greaterEqual]
  exact ordered_of_le more

/-- Operators agree on two whole numbers just if both have floating point forms, and these are equal only where the
numbers are; so they do where both numbers take 53 bits. Whatever the numbers are, their equality is told exactly, and no
order is told the wrong way round. -/
theorem holdsBy_ints (a b : Int) :
    (Agree (.int a) (.int b) ↔ ∃ x y, (Number.int a).toFloat = .ok x ∧ (Number.int b).toFloat = .ok y ∧
      ((Number.float x).equal (.float y) = true → a = b)) ∧
    (Number.IsExact a → Number.IsExact b → Agree (.int a) (.int b)) ∧
    holdsBy (.text "==") (.int a) (.int b) = .ok (decide (a = b)) ∧
    (a ≤ b → holdsBy (.text ">") (.int a) (.int b) ≠ .ok true ∧ holdsBy (.text "<=") (.int a) (.int b) ≠ .ok false) ∧
    (b ≤ a → holdsBy (.text "<") (.int a) (.int b) ≠ .ok true ∧ holdsBy (.text ">=") (.int a) (.int b) ≠ .ok false) := by
  refine ⟨⟨forms_of_agree, ?_⟩, ?_, looselyEqual_int a b, ordered_of_le, ordered_of_ge⟩
  · rintro ⟨x, y, left, right, same⟩
    exact agree_of_forms left right same
  · intro exact exact'
    obtain ⟨x, left, whole⟩ := Number.isExact_iff.mp exact
    obtain ⟨y, right, whole'⟩ := Number.isExact_iff.mp exact'
    refine agree_of_forms left right fun same => ?_
    rw [Number.equal_comm] at whole
    have equal := Number.equal_trans whole (Number.equal_trans same whole')
    rwa [Number.equal_int, decide_eq_true_eq] at equal

theorem holdsBy_ints_large : Number.IsExact 9007199254740992 ∧ Number.IsExact 9007199254740994 ∧
    Agree (.int 9007199254740992) (.int 9007199254740994) ∧
    holdsBy (.text "<=") (.int 9007199254740992) (.int 9007199254740993) ≠ .ok false ∧
    holdsBy (.text "<") (.int 9007199254740993) (.int 9007199254740992) ≠ .ok true := by
  have exact : Number.IsExact 9007199254740992 := Number.isExact_of_small (by decide)
  have exact' : Number.IsExact 9007199254740994 := by decide +kernel
  obtain ⟨_, agree, _⟩ := holdsBy_ints 9007199254740992 9007199254740994
  obtain ⟨_, _, _, upwards, _⟩ := holdsBy_ints 9007199254740992 9007199254740993
  obtain ⟨_, _, _, _, downwards⟩ := holdsBy_ints 9007199254740993 9007199254740992
  exact ⟨exact, exact', agree exact exact', (upwards (by decide)).2, (downwards (by decide)).1⟩

/-- Two whole numbers with one floating point form are neither equal nor in an order, but each is at most as great as the
other; and a number without such a form has no order at all. -/
theorem ints_not_agreeing : ¬Agree (.int 9007199254740992) (.int 9007199254740993) ∧
    holdsBy (.text "<=") (.int 9007199254740993) (.int 9007199254740992) = .ok true ∧
    (holdsBy (.text "<") (.int 0) (.int (Nat.pow 10 400))).toOption = none := by
  refine ⟨fun agree => ?_, ok_of_toOption (by decide +kernel), by decide +kernel⟩
  obtain ⟨less, equal, greater, before, decided, after, one, _⟩ := agree.decided
  have unordered : holdsBy (.text "<") (.int 9007199254740992) (.int 9007199254740993) = .ok false :=
    ok_of_toOption (by decide +kernel)
  have unordered' : holdsBy (.text ">") (.int 9007199254740992) (.int 9007199254740993) = .ok false :=
    ok_of_toOption (by decide +kernel)
  have unequal : holdsBy (.text "==") (.int 9007199254740992) (.int 9007199254740993) = .ok false :=
    ok_of_toOption (by decide +kernel)
  obtain rfl := Except.ok.inj (before.symm.trans unordered)
  obtain rfl := Except.ok.inj (after.symm.trans unordered')
  obtain rfl := Except.ok.inj (decided.symm.trans unequal)
  cases one

end Compare

end FormRules

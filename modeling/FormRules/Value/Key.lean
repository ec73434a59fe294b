import FormRules.Value.Basic

/-!
When scalars are equal and when they are one key. Both go by what they count, so 1, 1.0 and true are one key, but
a NaN is not equal to itself. Main statements: equality is transitive, being one key is an equivalence, and only a
NaN is one with something that it is not equal to.
-/

namespace FormRules

theorem Number.equal_iff {first second : Number} :
    first.equal second = true ↔ ∃ place, first.extent? = some place ∧ second.extent? = some place := by
  unfold equal
  constructor
  · intro same
    split at same
    next a b start stop => exact ⟨a, start, by rw [stop, beq_iff_eq.mp same]⟩
    next => cases same
  · rintro ⟨place, start, stop⟩
    rw [start, stop]
    exact beq_self_eq_true place

theorem Number.equal_self {n : Number} (known : n.isNaN = false) : n.equal n = true := by
  cases n with
  | int n => exact (equal_int n n).trans (decide_eq_true rfl)
  | float x =>
    cases x with
    | nan => cases known
    | infinite negative => cases negative <;> rfl
    | finite => exact beq_self_eq_true (α := Extent) _

theorem Number.equal_trans {first second third : Number} (left : first.equal second = true)
    (right : second.equal third = true) : first.equal third = true := by
  obtain ⟨place, start, middle⟩ := equal_iff.mp left
  obtain ⟨other, again, stop⟩ := equal_iff.mp right
  rw [middle, Option.some.injEq] at again
  subst other
  exact equal_iff.mpr ⟨place, start, stop⟩

theorem Moment.equal_trans {first second third : Moment} (left : first.equal second = true)
    (right : second.equal third = true) : first.equal third = true := by
  simp only [equal, Bool.and_eq_true, beq_iff_eq] at left right ⊢
  exact ⟨left.1.trans right.1, left.2.trans right.2⟩

namespace Scalar

theorem same_self {scalar : Scalar} (known : scalar.isNaN = false) : scalar.same scalar = true := by
  cases scalar with
  | number n => exact Number.equal_self known
  | bool b => exact Number.equal_self (n := .int _) rfl
  | moment m => simp [same, number?, Moment.equal]
  | null | text | date => exact beq_self_eq_true (α := Scalar) _

/-- A NaN is equal to nothing. -/
theorem same_of_isNaN {first : Scalar} (unknown : first.isNaN = true) (second : Scalar) : first.same second = false := by
  cases first with
  | number n =>
    cases n with
    | int _ => cases unknown
    | float x =>
      cases x with
      | nan => cases second <;> rfl
      | infinite | finite => cases unknown
  | _ => cases unknown

/-- What is the same as a scalar that counts as a number counts as that number. -/
private theorem same_of_number {first : Scalar} {n : Number} (counts : first.number? = some n)
    (second : Scalar) :
    first.same second = match second.number? with | some m => n.equal m | none => false := by
  cases first <;> cases second <;> simp_all [same, number?]

theorem same_trans {first second third : Scalar} (left : first.same second = true)
    (right : second.same third = true) : first.same third = true := by
  cases middle : second.number? with
  | some n =>
    rw [same_comm, same_of_number middle] at left
    rw [same_of_number middle] at right
    split at left
    next m counts =>
      rw [same_of_number counts]
      split at right
      next k last =>
        rw [Number.equal_comm] at left
        exact Number.equal_trans left right
      next => cases right
    next => cases left
  | none =>
    cases second <;> cases first <;> cases third <;>
      simp_all [same, number?]
    exact Moment.equal_trans left right

theorem coincides_trans {first second third : Scalar} (left : first.coincides second = true)
    (right : second.coincides third = true) : first.coincides third = true := by
  obtain left | rfl := coincides_iff.mp left
  · obtain right | rfl := coincides_iff.mp right
    · exact coincides_iff.mpr (.inl (same_trans left right))
    · exact coincides_iff.mpr (.inl left)
  · exact right

theorem coincides_congr {first second : Scalar} (equal : first.coincides second = true) (other : Scalar) :
    first.coincides other = second.coincides other := by
  apply Bool.eq_iff_iff.mpr
  constructor
  · intro left
    rw [coincides_comm] at equal
    exact coincides_trans equal left
  · exact coincides_trans equal

/-- What is one with something that is not a NaN is equal to it. -/
theorem same_of_coincides {first second : Scalar} (one : first.coincides second = true)
    (known : second.isNaN = false) : first.same second = true := by
  obtain equal | rfl := coincides_iff.mp one
  · exact equal
  · exact same_self known

end Scalar

end FormRules

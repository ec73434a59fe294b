import FormRules.Value.Key

/-!
Names of fields, as items declare them and as conditions and rules refer to them. They are one name where they are
one key, so 1, 1.0 and true are one name, but each is kept as it was written. Main statement: being one name is an
equivalence.
-/

namespace FormRules

structure Name where
  key : Scalar

namespace Name

instance : BEq Name := ⟨fun first second => first.key.coincides second.key⟩

/-- Whether names are equal. A NaN is one name with itself, but not equal to itself. -/
def equal (first second : Name) : Bool := first.key.same second.key

theorem beq_eq (first second : Name) : (first == second) = first.key.coincides second.key := rfl

instance : EquivBEq Name where
  rfl := Scalar.coincides_self _
  symm := fun equal => (Scalar.coincides_comm _ _).trans equal
  trans := Scalar.coincides_trans

/-- Names that are one are equal unless they are NaN. -/
theorem equal_of_beq {first second : Name} (one : (first == second) = true) (known : second.key.isNaN = false) :
    first.equal second = true :=
  Scalar.same_of_coincides one known

end Name

end FormRules

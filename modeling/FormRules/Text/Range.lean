/-!
Sets of characters given by ranges of code points, both ends included.
-/

namespace FormRules.Text

/-- Whether a code point lies in one of the ranges. -/
def inRanges (ranges : List (Nat × Nat)) (point : Nat) : Bool :=
  ranges.any fun (low, high) => low ≤ point && point ≤ high

theorem inRanges_append (first second : List (Nat × Nat)) (point : Nat) :
    inRanges (first ++ second) point = (inRanges first point || inRanges second point) := by
  simp [inRanges]

end FormRules.Text

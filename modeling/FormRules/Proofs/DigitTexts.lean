import FormRules.Path
import Mathlib.Data.List.Basic

/-! Texts of digit characters, read as whole numbers. Some digit characters are no decimal digits; a text with one of
them is no number, though every character of it is called a digit. -/

namespace FormRules

namespace Text

def blankRanges : List (Nat × Nat) := [
  (9, 13), (28, 32), (0x85, 0x85), (0xA0, 0xA0), (0x1680, 0x1680), (0x2000, 0x200A), (0x2028, 0x2028),
  (0x2029, 0x2029), (0x202F, 0x202F), (0x205F, 0x205F), (0x3000, 0x3000)]

def digitRanges : List (Nat × Nat) := (decimalZeros.map fun first => (first, first + 9)) ++ markedDigits

theorem isDecimal_eq (c : Char) :
    isDecimal c = inRanges (decimalZeros.map fun first => (first, first + 9)) c.toNat := by
  simp only [isDecimal, decimalValue?, Option.isSome_map, inRanges, List.any_map]
  rw [Bool.eq_iff_iff]
  simp

theorem isDigit_eq (c : Char) : isDigit c = inRanges digitRanges c.toNat := by
  rw [isDigit, isDecimal_eq, digitRanges, inRanges_append]

theorem isDecimal_of_read {chars : List Char} {values : List Nat} (read : chars.map decimalValue? = values.map some) :
    ∀ c ∈ chars, isDecimal c = true := by
  intro c member
  have shown : decimalValue? c ∈ values.map some := read ▸ List.mem_map_of_mem member
  obtain ⟨value, _, same⟩ := List.mem_map.mp shown
  rw [isDecimal, ← same, Option.isSome_some]

theorem isBlank_inRanges {c : Char} (blank : isBlank c = true) : inRanges blankRanges c.toNat = true := by
  simp only [isBlank, blankRanges, inRanges, List.any_cons, List.any_nil, Bool.or_eq_true, Bool.and_eq_true,
    decide_eq_true_eq, beq_iff_eq] at blank ⊢
  omega

/-- Ranges that all lie apart from some others share no point with them. -/
theorem inRanges_apart {first second : List (Nat × Nat)}
    (apart : ∀ range ∈ first, ∀ other ∈ second, range.2 < other.1 ∨ other.2 < range.1) {point : Nat}
    (inside : inRanges first point = true) : inRanges second point = false := by
  obtain ⟨range, member, bounds⟩ := List.any_eq_true.mp inside
  apply Bool.eq_false_iff.mpr
  intro also
  obtain ⟨other, member', bounds'⟩ := List.any_eq_true.mp also
  simp only [Bool.and_eq_true, decide_eq_true_eq] at bounds bounds'
  rcases apart range member other member' with before | after <;> omega

theorem isBlank_of_isDigit {c : Char} (digit : isDigit c = true) : isBlank c = false := by
  apply Bool.eq_false_iff.mpr
  intro blank
  rw [isDigit_eq, inRanges_apart (by decide +kernel) (isBlank_inRanges blank)] at digit
  contradiction

theorem ne_of_isDigit {c mark : Char} (digit : isDigit c = true) (other : isDigit mark = false) : c ≠ mark := by
  rintro rfl
  rw [other] at digit
  contradiction

theorem trimBy_eq_self {test : Char → Bool} {chars : List Char} (kept : ∀ c ∈ chars, test c = false) :
    trimBy test chars = chars := by
  have whole : ∀ {chars : List Char}, (∀ c ∈ chars, test c = false) → chars.dropWhile test = chars := by
    intro chars kept
    cases chars with
    | nil => rfl
    | cons c rest => rw [List.dropWhile_cons_of_neg (by simp [kept c])]
  rw [trimBy, whole kept, whole (by simpa using kept), List.reverse_reverse]

end Text

namespace Number

open Text

theorem moreDigits_cons {c : Char} (other : c ≠ '_') (rest : List Char) :
    moreDigits (c :: rest) =
      match decimalValue? c with
      | some value => (value :: (moreDigits rest).1, (moreDigits rest).2)
      | none => ([], c :: rest) := by
  conv_lhs => unfold moreDigits
  split
  next same => exact absurd (List.cons.inj same).1 other
  next same =>
    obtain ⟨rfl, rfl⟩ := List.cons.inj same
    cases decimalValue? c <;> rfl
  next same => cases same

/-- The decimal digits at the head of a text of digit characters are read, up to the first other one. -/
theorem moreDigits_of_digits {chars : List Char} (digits : ∀ c ∈ chars, isDigit c = true) :
    (∃ values, chars.map decimalValue? = values.map some ∧ moreDigits chars = (values, [])) ∨
      (∃ c ∈ chars, isDecimal c = false) ∧ (moreDigits chars).2 ≠ [] := by
  induction chars with
  | nil => exact .inl ⟨[], rfl, rfl⟩
  | cons c rest ih =>
    have other : c ≠ '_' := ne_of_isDigit (digits c (by simp)) (by decide +kernel)
    rw [moreDigits_cons other]
    cases shown : decimalValue? c with
    | none => exact .inr ⟨⟨c, by simp, by simp [isDecimal, shown]⟩, by simp⟩
    | some value =>
      rcases ih (fun d member => digits d (by simp [member])) with ⟨values, read, whole⟩ | ⟨⟨d, member, other⟩, left⟩
      · exact .inl ⟨value :: values, by simp [shown, read], by simp [whole]⟩
      · exact .inr ⟨⟨d, by simp [member], other⟩, left⟩

/-- A text of digit characters is read as a whole number just if all of them are decimal digits. -/
theorem int?_of_digits {text : String} (digits : allDigits text = true) :
    (∃ values, text.toList.map decimalValue? = values.map some ∧ int? text = some (↑(ofDigits values), text.length)) ∨
      (∃ c ∈ text.toList, isDecimal c = false) ∧ int? text = none := by
  simp only [allDigits, Bool.and_eq_true, Bool.not_eq_true', List.all_eq_true] at digits
  obtain ⟨filled, digits⟩ := digits
  have bare : trimBy isPadding text.toList = text.toList := by
    apply trimBy_eq_self
    intro c member
    simp [isPadding, isBlank_of_isDigit (digits c member)]
  obtain ⟨c, rest, shape⟩ : ∃ c rest, text.toList = c :: rest := by
    apply List.exists_cons_of_ne_nil
    intro none
    simp [String.toList_eq_nil_iff.mp none] at filled
  have first := digits c (by simp [shape])
  have unsigned : splitSign text.toList = (false, text.toList) := by
    rw [shape, splitSign]
    · exact fun _ same => ne_of_isDigit first (by decide +kernel) (List.cons.inj same).1
    · exact fun _ same => ne_of_isDigit first (by decide +kernel) (List.cons.inj same).1
  have run : digitRun text.toList = moreDigits text.toList := by
    rw [shape, digitRun]
    exact fun _ same => ne_of_isDigit first (by decide +kernel) (List.cons.inj same).1
  unfold int?
  rw [bare, unsigned]
  dsimp only
  rw [run]
  rcases moreDigits_of_digits digits with ⟨values, read, whole⟩ | ⟨mark, left⟩
  · have count : values.length = text.length := by
      rw [← String.length_toList, ← List.length_map (f := decimalValue?), read, List.length_map]
    refine .inl ⟨values, read, ?_⟩
    cases values with
    | nil => simp [shape] at read
    | cons value values => simp [whole, count]
  · refine .inr ⟨mark, ?_⟩
    rcases found : moreDigits text.toList with ⟨_ | ⟨value, values⟩, _ | ⟨d, left'⟩⟩
    · rfl
    · rfl
    · exact absurd (congrArg Prod.snd found) left
    · rfl

end Number

end FormRules

import FormRules.Json.Writer
import FormRules.Proofs.DecimalLayout
import FormRules.Proofs.ShortestDigits

/-! The text of a number determines the number. -/

namespace FormRules

namespace Number

/-! A text shows an amount that is rounded to its number, and its sign. -/

theorem layout_shortest_shows (style : DecimalStyle) (magnitude : Magnitude) : ∃ coefficient power,
    magnitude.reads coefficient power = true ∧
      amountShown (style.layout magnitude.shortest) = coefficient * 10 ^ power := by
  obtain ⟨coefficient, power, read, same⟩ := magnitude.shortest_reads
  obtain ⟨digits, begun⟩ := areDigits_ofCoefficient coefficient power
  rw [same]
  obtain ⟨_, _, _, _, spells, amount, _⟩ := layout_spells style digits begun
  exact ⟨coefficient, power, read, by rw [spells.amountShown, ← amount, amount_ofCoefficient]⟩

theorem layout_shortest_spells (style : DecimalStyle) (magnitude : Magnitude) : ∃ whole point fraction tail,
    Spells (style.layout magnitude.shortest) whole point fraction tail ∧
      (style.keepsPoint = true → point ≠ [] ∨ tail ≠ []) := by
  obtain ⟨coefficient, power, _, same⟩ := magnitude.shortest_reads
  obtain ⟨digits, begun⟩ := areDigits_ofCoefficient coefficient power
  rw [same]
  obtain ⟨whole, point, fraction, tail, spells, _, marked⟩ := layout_spells style digits begun
  exact ⟨whole, point, fraction, tail, spells, marked⟩

theorem layout_shortest_inj {style : DecimalStyle} {first second : Magnitude}
    (same : style.layout first.shortest = style.layout second.shortest) : first = second := by
  obtain ⟨c, p, left, amount⟩ := layout_shortest_shows style first
  obtain ⟨d, q, right, amount'⟩ := layout_shortest_shows style second
  exact Magnitude.eq_of_reads left right (by rw [← amount, ← amount', same])

/-- Whether a number is written with a sign. -/
def hasSign : Number → Bool
  | .int n => n < 0
  | .float .nan => false
  | .float (.infinite negative) => negative
  | .float (.finite negative _) => negative

/-- What a document writes of a number after its sign. -/
def unsigned : Number → List Char
  | .int n => decimalDigits n.natAbs
  | .float .nan => ['N', 'a', 'N']
  | .float (.infinite _) => ['I', 'n', 'f', 'i', 'n', 'i', 't', 'y']
  | .float (.finite _ magnitude) => DecimalStyle.full.layout magnitude.shortest

theorem repr_eq (n : Int) : n.repr = String.ofList (signChars (n < 0) ++ decimalDigits n.natAbs) := by
  cases n with
  | ofNat m =>
    have plain : decide (Int.ofNat m < 0) = false := by simp
    rw [plain]
    rfl
  | negSucc m =>
    have signed : decide (Int.negSucc m < 0) = true := by simp
    rw [signed, signChars, if_pos rfl, String.ofList_append]
    rfl

theorem writeNumber_eq (n : Number) : Json.writeNumber n = String.ofList (signChars n.hasSign ++ n.unsigned) := by
  cases n with
  | int n => exact repr_eq n
  | float x =>
    cases x with
    | nan => rfl
    | infinite negative => cases negative <;> rfl
    | finite negative magnitude => simp only [Json.writeNumber, Binary64.text, Binary64.textWith, hasSign, unsigned]

/-- Whether a character can occur in a number that a document writes, or in one of its words. -/
def isPlainChar (c : Char) : Bool := c.isAlphanum || c == '-' || c == '+' || c == '.'

theorem AreDigits.plain {chars : List Char} (digits : AreDigits chars) : ∀ c ∈ chars, isPlainChar c = true := by
  intro c member
  simp [isPlainChar, Char.isAlphanum, digits c member]

theorem Spells.plain {chars whole point fraction tail : List Char} (spells : Spells chars whole point fraction tail) :
    ∀ c ∈ chars, isPlainChar c = true := by
  obtain ⟨rfl, _, digits, more, pointed, marked⟩ := spells
  intro c member
  rw [List.mem_append, List.mem_append] at member
  obtain (inside | inside) | inside := member
  · exact digits.plain c inside
  · obtain rfl | ⟨rfl, _⟩ := pointed
    · obtain rfl | inside := List.mem_cons.mp inside
      · rfl
      · exact more.plain c inside
    · cases inside
  · obtain rfl | ⟨power, rfl⟩ := marked
    · cases inside
    · obtain rfl | inside := List.mem_cons.mp inside
      · rfl
      · obtain rfl | inside := List.mem_cons.mp inside
        · split <;> rfl
        · exact ((areDigits_zeros _).append (areDigits_decimalDigits _)).plain c inside

theorem unsigned_plain (n : Number) : ∀ c ∈ n.unsigned, isPlainChar c = true := by
  cases n with
  | int n => exact (areDigits_decimalDigits _).plain
  | float x =>
    cases x with
    | nan => exact List.all_eq_true.mp rfl
    | infinite negative => exact List.all_eq_true.mp rfl
    | finite negative magnitude =>
      obtain ⟨_, _, _, _, spells, _⟩ := layout_shortest_spells .full magnitude
      exact spells.plain

theorem writeNumber_plain (n : Number) : ∀ c ∈ (Json.writeNumber n).toList, isPlainChar c = true := by
  rw [writeNumber_eq, String.toList_ofList]
  intro c member
  obtain inside | inside := List.mem_append.mp member
  · cases sign : n.hasSign with
    | true =>
      rw [sign] at inside
      obtain rfl := List.mem_singleton.mp inside
      rfl
    | false =>
      rw [sign] at inside
      cases inside
  · exact unsigned_plain n c inside

/-- The text of a floating point number has a point or an exponent, so that it is not the text of a whole one. -/
theorem layout_ne_digits {magnitude : Magnitude} {chars : List Char} (digits : AreDigits chars) :
    DecimalStyle.full.layout magnitude.shortest ≠ chars := by
  rintro rfl
  obtain ⟨_, point, fraction, tail, spells, marked⟩ := layout_shortest_spells .full magnitude
  have inside : '.' ∈ DecimalStyle.full.layout magnitude.shortest ∨
      'e' ∈ DecimalStyle.full.layout magnitude.shortest := by
    obtain ⟨parts, _, _, _, pointed, exponent⟩ := spells
    rw [parts]
    obtain some | some := marked rfl
    · obtain rfl | ⟨rfl, _⟩ := pointed
      · exact .inl (by simp)
      · exact absurd rfl some
    · obtain rfl | ⟨power, rfl⟩ := exponent
      · exact absurd rfl some
      · exact .inr (by simp [exponentChars])
  obtain dot | mark := inside
  · exact absurd (digits _ dot) (by decide)
  · exact absurd (digits _ mark) (by decide)

theorem decimalDigits_inj {a b : Nat} (same : decimalDigits a = decimalDigits b) : a = b := by
  rw [← ofDigitChars_decimalDigits a, ← ofDigitChars_decimalDigits b, same]

/-- The first character of what is written after the sign tells numbers from words. -/
theorem unsigned_head (n : Number) : ∃ c rest, n.unsigned = c :: rest ∧
    match n with
    | .float .nan => c = 'N'
    | .float (.infinite _) => c = 'I'
    | _ => c.isDigit = true := by
  cases n with
  | int n =>
    obtain ⟨c, rest, shape⟩ := List.exists_cons_of_ne_nil (Nat.toDigits_ne_nil (b := 10) (n := n.natAbs))
    refine ⟨c, rest, shape, areDigits_decimalDigits n.natAbs c ?_⟩
    rw [decimalDigits, shape]
    exact List.mem_cons_self
  | float x =>
    cases x with
    | nan => exact ⟨_, _, rfl, rfl⟩
    | infinite negative => exact ⟨_, _, rfl, rfl⟩
    | finite negative magnitude =>
      obtain ⟨_, _, _, _, spells, _⟩ := layout_shortest_spells .full magnitude
      exact spells.head

theorem unsigned_inj {first second : Number} (signs : first.hasSign = second.hasSign)
    (same : first.unsigned = second.unsigned) : first = second := by
  obtain ⟨c, _, shape, kind⟩ := unsigned_head first
  obtain ⟨d, _, shape', kind'⟩ := unsigned_head second
  obtain ⟨rfl, _⟩ := List.cons.inj (shape.symm.trans (same.trans shape'))
  clear shape shape'
  match first, second with
  | .int a, .int b =>
    have sizes : a.natAbs = b.natAbs := decimalDigits_inj same
    have signs : decide (a < 0) = decide (b < 0) := signs
    rw [decide_eq_decide] at signs
    exact congrArg Number.int (by omega)
  | .int a, .float (.finite _ _) => exact absurd same.symm (layout_ne_digits (areDigits_decimalDigits a.natAbs))
  | .float (.finite _ _), .int b => exact absurd same (layout_ne_digits (areDigits_decimalDigits b.natAbs))
  | .float (.finite _ _), .float (.finite _ _) =>
    obtain rfl := layout_shortest_inj same
    exact congrArg (fun sign => Number.float (.finite sign _)) signs
  | .float .nan, .float .nan => rfl
  | .float (.infinite _), .float (.infinite _) => exact congrArg (fun sign => Number.float (.infinite sign)) signs
  | .int _, .float .nan | .int _, .float (.infinite _) | .float (.finite _ _), .float .nan
  | .float (.finite _ _), .float (.infinite _) | .float .nan, .float (.infinite _) =>
    simp only at kind kind'
    subst kind'
    exact absurd kind (by decide)
  | .float .nan, .int _ | .float .nan, .float (.finite _ _) | .float (.infinite _), .int _
  | .float (.infinite _), .float (.finite _ _) | .float (.infinite _), .float .nan =>
    simp only at kind kind'
    subst kind
    exact absurd kind' (by decide)

theorem signChars_append_inj {first second : Bool} {x y : List Char} (left : x.head? ≠ some '-')
    (right : y.head? ≠ some '-') (same : signChars first ++ x = signChars second ++ y) : first = second ∧ x = y := by
  cases first <;> cases second
  · exact ⟨rfl, same⟩
  · exact absurd (congrArg List.head? same) left
  · exact absurd (congrArg List.head? same).symm right
  · exact ⟨rfl, (List.cons.inj same).2⟩

/-- Numbers that are written alike are the same. -/
theorem writeNumber_inj {first second : Number} (same : Json.writeNumber first = Json.writeNumber second) :
    first = second := by
  rw [writeNumber_eq, writeNumber_eq] at same
  have bare (n : Number) : n.unsigned.head? ≠ some '-' := by
    obtain ⟨c, rest, shape, kind⟩ := n.unsigned_head
    rw [shape]
    rintro ⟨⟩
    split at kind <;> exact absurd kind (by decide)
  obtain ⟨signs, rest⟩ := signChars_append_inj (bare first) (bare second) (String.ofList_injective same)
  exact unsigned_inj signs rest

end Number

end FormRules

import FormRules.Number.Decimal
import Mathlib.Algebra.Order.Field.Rat
import Mathlib.Algebra.Order.Ring.Rat
import Mathlib.Tactic.NormNum
import Mathlib.Tactic.Ring

/-! The layout of digits as text shows the amount that they stand for, wherever it puts the point. -/

namespace FormRules

namespace Number

/-- The amount that significant digits stand for. -/
def Decimal.amount (decimal : Decimal) : ℚ :=
  Nat.ofDigitChars 10 decimal.digits 0 * 10 ^ (decimal.power + 1 - decimal.digits.length)

/-! The layout of digits shows their amount, wherever it puts the point. -/

/-- The power of ten that an exponent shows, after its mark and its sign. -/
def exponentShown : List Char → Int
  | _ :: sign :: digits => if sign = '-' then -(Nat.ofDigitChars 10 digits 0) else Nat.ofDigitChars 10 digits 0
  | _ => 0

/-- The amount that a text shows: digits before and after a point, and a power of ten after a mark. -/
def amountShown (chars : List Char) : ℚ :=
  let plain := chars.takeWhile (· != 'e')
  let whole := plain.takeWhile (· != '.')
  let fraction := (plain.dropWhile (· != '.')).drop 1
  Nat.ofDigitChars 10 (whole ++ fraction) 0 * 10 ^ (exponentShown (chars.dropWhile (· != 'e')) - fraction.length)

/-- Digits, and nothing else. -/
def AreDigits (chars : List Char) : Prop := ∀ c ∈ chars, c.isDigit = true

theorem AreDigits.append {first second : List Char} (left : AreDigits first) (right : AreDigits second) :
    AreDigits (first ++ second) := fun c member => (List.mem_append.mp member).elim (left c) (right c)

theorem areDigits_zeros (count : Nat) : AreDigits (zeros count) := by
  intro c member
  rw [List.eq_of_mem_replicate member]
  rfl

theorem areDigits_decimalDigits (n : Nat) : AreDigits (decimalDigits n) :=
  fun _ member => Nat.isDigit_of_mem_toDigits (by decide) (by decide) member

theorem ofDigitChars_decimalDigits (n : Nat) : Nat.ofDigitChars 10 (decimalDigits n) 0 = n :=
  Nat.ofDigitChars_toDigits (by decide) (by decide)

theorem ofDigitChars_append_zeros (digits : List Char) (count : Nat) :
    Nat.ofDigitChars 10 (digits ++ zeros count) 0 = Nat.ofDigitChars 10 digits 0 * 10 ^ count := by
  rw [Nat.ofDigitChars_append, zeros, Nat.ofDigitChars_replicate_zero, Nat.mul_comm]

theorem ofDigitChars_zeros_append (count : Nat) (digits : List Char) :
    Nat.ofDigitChars 10 (zeros count ++ digits) 0 = Nat.ofDigitChars 10 digits 0 := by
  rw [Nat.ofDigitChars_append, zeros, Nat.ofDigitChars_replicate_zero, Nat.mul_zero]

/-- The part of a text before a mark that only follows digits and points. -/
theorem span_append {p : Char → Bool} {first second : List Char} (all : ∀ c ∈ first, p c = true)
    (ends : ∀ c, second.head? = some c → p c = false) :
    (first ++ second).takeWhile p = first ∧ (first ++ second).dropWhile p = second := by
  rw [List.takeWhile_append_of_pos all, List.dropWhile_append_of_pos all]
  cases second with
  | nil => simp
  | cons c rest => simp [ends c rfl]

theorem AreDigits.ne {chars : List Char} (digits : AreDigits chars) {mark : Char} (other : mark.isDigit = false) :
    ∀ c ∈ chars, (c != mark) = true := by
  intro c member
  rw [bne_iff_ne]
  rintro rfl
  exact Bool.false_ne_true (other.symm.trans (digits c member))

theorem exponentShown_exponentChars (power : Int) : exponentShown (exponentChars power) = power := by
  have size : Nat.ofDigitChars 10 (zeros (2 - (decimalDigits power.natAbs).length) ++ decimalDigits power.natAbs) 0 =
      power.natAbs := by rw [ofDigitChars_zeros_append, ofDigitChars_decimalDigits]
  unfold exponentChars exponentShown
  simp only [size]
  by_cases below : power < 0
  · simp only [below, if_true]
    omega
  · simp only [below, if_false]
    rw [if_neg (by decide)]
    omega

/-- The parts of a text that shows digits: those before and after a point, if there is one, and an exponent. -/
structure Spells (chars whole point fraction tail : List Char) : Prop where
  parts : chars = whole ++ point ++ tail
  begun : whole ≠ []
  digits : AreDigits whole
  more : AreDigits fraction
  pointed : point = '.' :: fraction ∨ point = [] ∧ fraction = []
  marked : tail = [] ∨ ∃ power, tail = exponentChars power

namespace Spells

variable {chars whole point fraction tail : List Char} (spells : Spells chars whole point fraction tail)

include spells

theorem amountShown : amountShown chars =
    Nat.ofDigitChars 10 (whole ++ fraction) 0 * 10 ^ (exponentShown tail - fraction.length) := by
  obtain ⟨rfl, _, digits, more, pointed, marked⟩ := spells
  have plain : ∀ c ∈ whole ++ point, (c != 'e') = true := by
    intro c member
    obtain inside | inside := List.mem_append.mp member
    · exact digits.ne rfl c inside
    · obtain rfl | ⟨rfl, _⟩ := pointed
      · obtain rfl | inside := List.mem_cons.mp inside
        · rfl
        · exact more.ne rfl c inside
      · cases inside
  have exponent : ∀ c, tail.head? = some c → (c != 'e') = false := by
    obtain rfl | ⟨power, rfl⟩ := marked
    · exact nofun
    · intro c first
      cases first
      rfl
  have ended : ∀ c, point.head? = some c → (c != '.') = false := by
    obtain rfl | ⟨rfl, _⟩ := pointed
    · intro c first
      cases first
      rfl
    · exact nofun
  obtain ⟨before, after⟩ := span_append plain exponent
  obtain ⟨left, right⟩ := span_append (digits.ne (show '.'.isDigit = false from rfl)) ended
  have dropped : point.drop 1 = fraction := by
    obtain rfl | ⟨rfl, rfl⟩ := pointed <;> rfl
  simp only [Number.amountShown, before, after, left, right, dropped]

theorem head : ∃ c rest, chars = c :: rest ∧ c.isDigit = true := by
  obtain ⟨rfl, begun, digits, _, _, _⟩ := spells
  obtain ⟨c, rest, rfl⟩ := List.exists_cons_of_ne_nil begun
  exact ⟨c, rest ++ point ++ tail, by simp, digits c List.mem_cons_self⟩

end Spells

/-- The point of a style comes with the digits after it, and perhaps with zeros. -/
theorem afterPoint_shape (style : DecimalStyle) (digits : List Char) :
    ∃ count, afterPoint style digits = '.' :: (digits ++ zeros count) ∨
      afterPoint style digits = [] ∧ digits ++ zeros count = [] ∧ style.keepsPoint = false := by
  unfold afterPoint
  split
  next none =>
    obtain rfl := List.isEmpty_iff.mp none
    split
    next => exact ⟨1, .inl rfl⟩
    next plain => exact ⟨0, .inr ⟨rfl, rfl, Bool.eq_false_iff.mpr plain⟩⟩
  next => exact ⟨0, .inl (by simp [zeros])⟩

/-- A layout shows the amount of its digits, wherever it puts the point. In a style that keeps the point of a
whole number, it has a point or an exponent. -/
theorem layout_spells (style : DecimalStyle) {decimal : Decimal} (digits : AreDigits decimal.digits)
    (begun : decimal.digits ≠ []) :
    ∃ whole point fraction tail, Spells (style.layout decimal) whole point fraction tail ∧
      decimal.amount = Nat.ofDigitChars 10 (whole ++ fraction) 0 * 10 ^ (exponentShown tail - fraction.length) ∧
      (style.keepsPoint = true → point ≠ [] ∨ tail ≠ []) := by
  obtain ⟨all, power⟩ := decimal
  have positive : 0 < all.length := List.length_pos_iff.mpr begun
  have front (count : Nat) : AreDigits (all.take count) := fun c member => digits c (List.mem_of_mem_take member)
  have back (count : Nat) : AreDigits (all.drop count) := fun c member => digits c (List.mem_of_mem_drop member)
  unfold DecimalStyle.layout Decimal.amount
  simp only
  split
  next plain =>
    split
    next below =>
      refine ⟨['0'], '.' :: (zeros (-power - 1).toNat ++ all), zeros (-power - 1).toNat ++ all, [],
        ⟨by simp, by simp, areDigits_zeros 1, (areDigits_zeros _).append digits, .inl rfl, .inl rfl⟩, ?_, by simp⟩
      have value : Nat.ofDigitChars 10 (['0'] ++ (zeros (-power - 1).toNat ++ all)) 0 = Nat.ofDigitChars 10 all 0 := by
        rw [← List.append_assoc]
        exact ofDigitChars_zeros_append ((-power - 1).toNat + 1) all
      rw [value, List.length_append, zeros, List.length_replicate]
      congr 2
      simp only [exponentShown]
      omega
    next above =>
      obtain ⟨count, shape⟩ := afterPoint_shape style (all.drop (power.toNat + 1))
      have regrouped : all.take (power.toNat + 1) ++ zeros (power.toNat + 1 - all.length) ++
          (all.drop (power.toNat + 1) ++ zeros count) = all ++ zeros (power.toNat + 1 - all.length + count) := by
        have joined : zeros (power.toNat + 1 - all.length) ++ zeros count =
            zeros (power.toNat + 1 - all.length + count) := List.replicate_append_replicate
        by_cases short : all.length ≤ power.toNat + 1
        · rw [List.take_of_length_le short, List.drop_eq_nil_of_le short, List.nil_append, List.append_assoc, joined]
        · have none : power.toNat + 1 - all.length = 0 := by omega
          rw [none, Nat.zero_add, zeros, List.replicate_zero, List.append_nil, ← List.append_assoc,
            List.take_append_drop]
      refine ⟨all.take (power.toNat + 1) ++ zeros (power.toNat + 1 - all.length),
        afterPoint style (all.drop (power.toNat + 1)), all.drop (power.toNat + 1) ++ zeros count, [],
        ⟨by simp, ?_, (front _).append (areDigits_zeros _), (back _).append (areDigits_zeros _), ?_, .inl rfl⟩, ?_, ?_⟩
      · simp [begun]
      · exact shape.imp_right fun bare => ⟨bare.1, bare.2.1⟩
      · rw [regrouped, ofDigitChars_append_zeros, List.length_append, List.length_drop, zeros, List.length_replicate]
        push_cast
        rw [mul_assoc, ← zpow_natCast, ← zpow_add₀ (by norm_num)]
        congr 2
        simp only [exponentShown]
        omega
      · intro keeps
        obtain pointed | bare := shape
        · exact .inl (by simp [pointed])
        · rw [keeps] at bare
          cases bare.2.2
  next scientific =>
    have point : (if (all.drop 1).isEmpty then [] else '.' :: all.drop 1) = '.' :: all.drop 1 ∨
        (if (all.drop 1).isEmpty then [] else '.' :: all.drop 1) = [] ∧ all.drop 1 = [] := by
      cases all.drop 1 with
      | nil => exact .inr ⟨rfl, rfl⟩
      | cons c rest => exact .inl rfl
    refine ⟨all.take 1, _, all.drop 1, exponentChars power,
      ⟨rfl, ?_, front 1, back 1, point, .inr ⟨power, rfl⟩⟩, ?_, fun _ => .inr (by simp [exponentChars])⟩
    · simp [begun]
    · rw [List.take_append_drop, exponentShown_exponentChars, List.length_drop]
      congr 2
      omega

/-! Digits made of a coefficient stand for it. -/

theorem areDigits_ofCoefficient (coefficient : Nat) (lastPower : Int) :
    AreDigits (Decimal.ofCoefficient coefficient lastPower).digits ∧
      (Decimal.ofCoefficient coefficient lastPower).digits ≠ [] := by
  unfold Decimal.ofCoefficient
  simp only
  split
  next none => exact ⟨areDigits_zeros 1, by simp⟩
  next some =>
    refine ⟨fun c member => areDigits_decimalDigits coefficient c ?_, by simpa using some⟩
    exact List.mem_reverse.mp ((List.dropWhile_sublist _).mem (List.mem_reverse.mp member))

/-- The zeros at the end of a coefficient count for nothing but its power. -/
theorem amount_ofCoefficient (coefficient : Nat) (lastPower : Int) :
    (Decimal.ofCoefficient coefficient lastPower).amount = coefficient * 10 ^ lastPower := by
  obtain ⟨count, whole⟩ : ∃ count, decimalDigits coefficient =
      ((decimalDigits coefficient).reverse.dropWhile (· == '0')).reverse ++ zeros count := by
    refine ⟨((decimalDigits coefficient).reverse.takeWhile (· == '0')).length, ?_⟩
    have same : ((decimalDigits coefficient).reverse.takeWhile (· == '0')).reverse =
        zeros ((decimalDigits coefficient).reverse.takeWhile (· == '0')).length := by
      refine List.eq_replicate_iff.mpr ⟨List.length_reverse, fun c member => ?_⟩
      exact beq_iff_eq.mp (List.all_eq_true.mp List.all_takeWhile c (List.mem_reverse.mp member))
    rw [← same, ← List.reverse_append, List.takeWhile_append_dropWhile, List.reverse_reverse]
  unfold Decimal.ofCoefficient Decimal.amount
  simp only
  generalize ((decimalDigits coefficient).reverse.dropWhile (· == '0')).reverse = kept at whole
  have value : coefficient = Nat.ofDigitChars 10 kept 0 * 10 ^ count := by
    rw [← ofDigitChars_append_zeros, ← whole, ofDigitChars_decimalDigits]
  have size : (decimalDigits coefficient).length = kept.length + count := by
    rw [whole, List.length_append, zeros, List.length_replicate]
  have positive : 0 < (decimalDigits coefficient).length := Nat.length_toDigits_pos
  cases kept with
  | nil =>
    have nothing : coefficient = 0 := by simpa using value
    subst nothing
    norm_num [Nat.ofDigitChars]
  | cons c rest =>
    rw [if_neg (by simp), size]
    conv_rhs => rw [value]
    push_cast
    rw [mul_assoc, ← zpow_natCast, ← zpow_add₀ (by norm_num)]
    congr 2
    omega

end Number

end FormRules

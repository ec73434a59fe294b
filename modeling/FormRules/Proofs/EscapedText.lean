import FormRules.Json.Reader
import FormRules.Json.Writer

/-! A text that is written with plain characters only reads back as itself, so that what is written determines the
text and where it ends. -/

namespace FormRules.Json

open Text (hexDigit hexDigits)

theorem hexValue?_hexDigit {value : Nat} (small : value < 16) : hexValue? (hexDigit value) = some value := by
  have all : ∀ value < 16, hexValue? (hexDigit value) = some value := by decide
  exact all value small

theorem hexDigits_four (unit : Nat) : hexDigits 4 unit =
    [hexDigit (unit / 16 / 16 / 16 % 16), hexDigit (unit / 16 / 16 % 16), hexDigit (unit / 16 % 16),
      hexDigit (unit % 16)] := rfl

theorem unitAfter_hexDigits {unit : Nat} (small : unit < 0x10000) (next : Char) (rest : List Char) :
    unitAfter ('u' :: (hexDigits 4 unit ++ next :: rest)) = .ok (unit, next :: rest) := by
  have digit (n : Nat) : hexValue? (hexDigit (n % 16)) = some (n % 16) := hexValue?_hexDigit (Nat.mod_lt n (by decide))
  have whole : unit? (hexDigits 4 unit) = some unit := by
    simp only [hexDigits_four, unit?, List.foldl_cons, List.foldl_nil, Option.bind_some, digit, Option.map_some]
    congr 1
    omega
  rw [hexDigits_four] at whole ⊢
  simp only [List.cons_append, List.nil_append, unitAfter, whole]

/-- A character is in neither half of the pairs. -/
theorem not_half (c : Char) : isHigh c.toNat = false ∧ isLow c.toNat = false := by
  have valid : c.toNat.isValidChar := c.valid
  unfold isHigh isLow
  rw [Nat.isValidChar] at valid
  simp only [Bool.and_eq_false_iff, decide_eq_false_iff_not]
  omega

theorem readText_unit (opened fuel : Nat) (taken tail : List Char) :
    readText opened taken (fuel + 1) (backslash :: 'u' :: tail) = (do
      let (unit, left) ← unitAfter ('u' :: tail)
      let low? ← if isHigh unit then lowAfter left else pure none
      match low? with
      | some (low, left) => readText opened (pairChar unit low :: taken) fuel left
      | none => readText opened (unitChar unit :: taken) fuel left) := rfl

theorem readText_escapeUnit (opened fuel : Nat) (taken : List Char) {unit : Nat} (small : unit < 0x10000)
    (whole : isHigh unit = false) (next : Char) (rest : List Char) :
    readText opened taken (fuel + 1) (escapeUnit unit ++ next :: rest) =
      readText opened (unitChar unit :: taken) fuel (next :: rest) := by
  refine (readText_unit opened fuel taken (hexDigits 4 unit ++ next :: rest)).trans ?_
  rw [unitAfter_hexDigits small next rest]
  dsimp only [bind, Except.bind]
  rw [whole]
  rfl

theorem readText_escapePair (opened fuel : Nat) (taken : List Char) {high low : Nat} (first : isHigh high = true)
    (second : isLow low = true) (next : Char) (rest : List Char) :
    readText opened taken (fuel + 1) (escapeUnit high ++ escapeUnit low ++ next :: rest) =
      readText opened (pairChar high low :: taken) fuel (next :: rest) := by
  have smallHigh : high < 0x10000 := by
    simp only [isHigh, Bool.and_eq_true, decide_eq_true_eq] at first
    omega
  have smallLow : low < 0x10000 := by
    simp only [isLow, Bool.and_eq_true, decide_eq_true_eq] at second
    omega
  have paired : lowAfter ('\\' :: 'u' :: (hexDigits 4 low ++ next :: rest)) = .ok (some (low, next :: rest)) := by
    have long : 5 ≤ (hexDigits 4 low ++ next :: rest).length := by
      rw [hexDigits_four, List.length_append, List.length_cons]
      simp only [List.length_cons, List.length_nil]
      omega
    have enough : ('\\' == backslash && 'u' == 'u' && decide (5 ≤ (hexDigits 4 low ++ next :: rest).length)) = true := by
      rw [decide_eq_true long]
      rfl
    unfold lowAfter
    simp only [enough, if_true, unitAfter_hexDigits smallLow]
    show Except.ok (if isLow low then some (low, next :: rest) else none) = _
    rw [if_pos second]
  rw [List.append_assoc]
  refine (readText_unit opened fuel taken (hexDigits 4 high ++ '\\' :: 'u' :: (hexDigits 4 low ++ next :: rest))).trans ?_
  rw [unitAfter_hexDigits smallHigh '\\' ('u' :: (hexDigits 4 low ++ next :: rest))]
  dsimp only [bind, Except.bind]
  rw [first, if_pos rfl, paired]

theorem readText_plain (opened fuel : Nat) (taken : List Char) {c : Char} (shown : 32 ≤ c.toNat) (inner : c ≠ quote)
    (bare : c ≠ backslash) (rest : List Char) :
    readText opened taken (fuel + 1) (c :: rest) = readText opened (c :: taken) fuel rest := by
  rw [readText.eq_def]
  simp only
  rw [if_neg (by simpa using inner), if_neg (Nat.not_lt.mpr shown), if_neg (by simpa using bare)]

/-- A character without a mark of its own is shown, or written by its number. -/
theorem readText_unmarked (opened fuel : Nat) (taken : List Char) {c : Char}
    (plain : ¬(c.toNat = 34 ∨ c.toNat = 92)) (next : Char) (rest : List Char) :
    readText opened taken (fuel + 1)
      ((if c.toNat < 32 then escapeUnit c.toNat
        else if Charset.ascii = .full ∨ c.toNat < 127 then [c]
        else if c.toNat < 0x10000 then escapeUnit c.toNat
        else escapeUnit (0xD800 + (c.toNat - 0x10000) / 1024) ++ escapeUnit (0xDC00 + (c.toNat - 0x10000) % 1024)) ++
        next :: rest) = readText opened (c :: taken) fuel (next :: rest) := by
  obtain ⟨notHigh, notLow⟩ := not_half c
  have whole : unitChar c.toNat = c := by
    rw [unitChar, notHigh, notLow]
    exact Char.ofNat_toNat c
  split
  next control => rw [readText_escapeUnit opened fuel taken (by omega) notHigh, whole]
  next shown =>
    split
    next =>
      refine readText_plain opened fuel taken (Nat.not_lt.mp shown) ?_ ?_ (next :: rest)
      · rintro rfl
        exact plain (.inl rfl)
      · rintro rfl
        exact plain (.inr rfl)
    next =>
      split
      next single => rw [readText_escapeUnit opened fuel taken single notHigh, whole]
      next double =>
        have limit : c.toNat < 0x110000 := by
          have valid : c.toNat.isValidChar := c.valid
          rw [Nat.isValidChar] at valid
          omega
        have first : isHigh (0xD800 + (c.toNat - 0x10000) / 1024) = true := by
          simp only [isHigh, Bool.and_eq_true, decide_eq_true_eq]
          omega
        have second : isLow (0xDC00 + (c.toNat - 0x10000) % 1024) = true := by
          simp only [isLow, Bool.and_eq_true, decide_eq_true_eq]
          omega
        have both : pairChar (0xD800 + (c.toNat - 0x10000) / 1024) (0xDC00 + (c.toNat - 0x10000) % 1024) = c := by
          have point : 0x10000 + (0xD800 + (c.toNat - 0x10000) / 1024 - 0xD800) * 1024 +
              (0xDC00 + (c.toNat - 0x10000) % 1024 - 0xDC00) = c.toNat := by omega
          rw [pairChar, point, Char.ofNat_toNat]
        rw [readText_escapePair opened fuel taken first second, both]

/-- What a character is written as is read back, whatever follows it. -/
theorem readText_escapeChar (opened fuel : Nat) (taken : List Char) (c next : Char) (rest : List Char) :
    readText opened taken (fuel + 1) (escapeChar .ascii c ++ next :: rest) =
      readText opened (c :: taken) fuel (next :: rest) := by
  by_cases marked : c ∈ [quote, backslash, '\n', '\r', '\t', '\x0c', '\x08']
  · simp only [List.mem_cons, List.not_mem_nil, or_false] at marked
    obtain rfl | rfl | rfl | rfl | rfl | rfl | rfl := marked <;> rfl
  · simp only [List.mem_cons, List.not_mem_nil, or_false, not_or] at marked
    obtain ⟨inner, bare, line, back, tab, page, erase⟩ := marked
    have away {d : Char} (other : c ≠ d) : c.toNat ≠ d.toNat := fun point =>
      other (by rw [← Char.ofNat_toNat c, point, Char.ofNat_toNat])
    have quoted : c.toNat ≠ 34 := away inner
    have slash : c.toNat ≠ 92 := away bare
    have form : c.toNat ≠ 12 := away page
    have erased : c.toNat ≠ 8 := away erase
    rw [← readText_unmarked opened fuel taken (c := c) (by omega) next rest]
    simp only [escapeChar, quoted, slash, form, erased, line, back, tab, beq_iff_eq, Bool.or_eq_true, decide_eq_true_eq,
      or_self, if_false]

/-- A text and the quote that ends it are read back. -/
theorem readText_flatMap (opened fuel : Nat) (taken chars : List Char) (long : chars.length < fuel) (rest : List Char) :
    readText opened taken fuel (chars.flatMap (escapeChar .ascii) ++ quote :: rest) =
      .ok (String.ofList (taken.reverse ++ chars), rest) := by
  induction chars generalizing fuel taken with
  | nil =>
    cases fuel with
    | zero => cases long
    | succ fuel => simp [readText]
  | cons c chars ih =>
    cases fuel with
    | zero => cases long
    | succ fuel =>
      obtain ⟨next, later, shape⟩ := List.exists_cons_of_ne_nil (l := chars.flatMap (escapeChar .ascii) ++ quote :: rest)
        (by simp)
      rw [List.flatMap_cons, List.append_assoc, shape, readText_escapeChar, ← shape]
      rw [ih fuel (c :: taken) (by simpa using long), List.reverse_cons, List.append_assoc, List.singleton_append]

/-- What is written of a text determines the text, and where it ends. -/
theorem writeText_append_inj {first second : String} {x y : List Char}
    (same : (writeText .ascii first).toList ++ x = (writeText .ascii second).toList ++ y) : first = second ∧ x = y := by
  have opened (text : String) (rest : List Char) : (writeText .ascii text).toList ++ rest =
      quote :: (text.toList.flatMap (escapeChar .ascii) ++ quote :: rest) := by
    rw [writeText, String.toList_ofList, List.append_assoc]
    rfl
  rw [opened, opened] at same
  have inner := (List.cons.inj same).2
  have left := readText_flatMap 0 (first.toList.length + second.toList.length + 1) [] first.toList (by omega) x
  have right := readText_flatMap 0 (first.toList.length + second.toList.length + 1) [] second.toList (by omega) y
  rw [inner, right] at left
  obtain ⟨texts, rests⟩ := Prod.mk.inj (Except.ok.inj left)
  exact ⟨String.toList_injective (String.ofList_injective texts).symm, rests.symm⟩

end FormRules.Json

import FormRules.Proofs.RightAnswers
import FormRules.Proofs.RoundingOrder

/-! Saying more never scores less. A text that is at least as long as another one and has all keywords of a rule that the
other one has is not held back where the other one passes, and what it earns for the optional keywords grows with their
number: up to half of them by a share, which with rounding stays below the points, and from there on all points. -/

namespace FormRules

attribute [local irreducible] Number.perOne Number.overflow

section Filters

variable {α : Type} {test : α → Except Fault Bool} {items kept : List α}

private theorem Fault.of_filterAuxM_ok {before : List α} (ended : items.filterAuxM test before = .ok kept) :
    (∀ item ∈ items, ∃ answer, test item = .ok answer) ∧
      kept = (items.filter fun item => (test item).toOption.getD false).reverse ++ before := by
  induction items generalizing before with
  | nil =>
    cases ended
    exact ⟨nofun, rfl⟩
  | cons item items ih =>
    obtain ⟨answer, found, rest⟩ := of_bind_ok (show (test item >>= _) = _ from ended)
    obtain ⟨each, rfl⟩ := ih rest
    refine ⟨List.forall_mem_cons.mpr ⟨⟨answer, found⟩, each⟩, ?_⟩
    rw [List.filter_cons, found]
    cases answer with
    | true => exact (List.append_assoc _ [item] before).symm.trans (by rw [← List.reverse_cons]; rfl)
    | false => rfl

/-- A test that ends for a whole list ends for each item, and those that pass it are kept. -/
theorem Fault.of_filterM_ok (ended : items.filterM test = .ok kept) :
    ∃ passes : α → Bool, (∀ item ∈ items, test item = .ok (passes item)) ∧ kept = items.filter passes := by
  obtain ⟨reversed, found, ended⟩ := of_bind_ok (show (items.filterAuxM test [] >>= _) = _ from ended)
  cases ended
  obtain ⟨each, rfl⟩ := of_filterAuxM_ok found
  refine ⟨_, fun item member => ?_, by rw [List.append_nil, List.reverse_reverse]⟩
  obtain ⟨answer, found⟩ := each item member
  rw [found]
  rfl

end Filters

namespace Comparison

variable {a b c : Number}

theorem greaterEqual_iff : greaterEqual.numbers a b = true ↔
    ∃ x y, a.extent? = some x ∧ b.extent? = some y ∧ (y.less x = true ∨ x = y) := by
  cases here : a.extent? <;> cases there : b.extent? <;>
    simp [numbers, ofOrder, Number.less, Number.equal, here, there]

theorem greaterEqual_trans (left : greaterEqual.numbers a b = true) (right : greaterEqual.numbers b c = true) :
    greaterEqual.numbers a c = true := by
  obtain ⟨x, y, here, there, above⟩ := greaterEqual_iff.mp left
  obtain ⟨_, z, same, beyond, above'⟩ := greaterEqual_iff.mp right
  cases there.symm.trans same
  refine greaterEqual_iff.mpr ⟨x, z, here, beyond, ?_⟩
  obtain before | rfl := above
  · obtain before' | rfl := above'
    · exact .inl (Number.Extent.less_trans before' before)
    · exact .inl before
  · exact above'

theorem greaterEqual_iff_of_amount? {x y : ℚ} (left : a.amount? = some x) (right : b.amount? = some y) :
    greaterEqual.numbers a b = true ↔ y ≤ x := by
  obtain ⟨units, here, rfl⟩ := Number.extent?_of_amount? left
  obtain ⟨others, there, rfl⟩ := Number.extent?_of_amount? right
  rw [Number.numbers_of_extent? here there, div_le_div_iff_of_pos_right Number.perOne_above, Int.cast_le]
  simp only [ofOrder, Bool.or_eq_true, decide_eq_true_eq]
  omega

theorem greaterEqual_neg (above : greater.numbers a (.int 0) = true) : greaterEqual.numbers (.int 0) a.neg = true := by
  have below {x : ℚ} (stands : a.amount? = some x) (opposite : a.neg.amount? = some (-x)) :
      greaterEqual.numbers (.int 0) a.neg = true := by
    refine (greaterEqual_iff_of_amount? rfl opposite).mpr ?_
    have above : (Number.int 0).less a = true := above
    rw [Number.less_eq_decide rfl stands, decide_eq_true_eq] at above
    simpa using above.le
  cases a with
  | int n => exact below rfl (congrArg some (Int.cast_neg n))
  | float x =>
    cases x with
    | nan => exact absurd above Bool.false_ne_true
    | infinite negative =>
      cases negative with
      | false => rfl
      | true => exact absurd above Bool.false_ne_true
    | finite negative magnitude => exact below rfl (Number.Binary64.amount?_neg (.finite negative magnitude))

end Comparison

theorem Number.less_int_of_le {a b : Int} (le : a ≤ b) {n : Number} (less : (Number.int b).less n = true) :
    (Number.int a).less n = true := by
  rcases le.eq_or_lt with rfl | before
  · exact less
  · have first : (Number.int a).less (.int b) = true := (less_int a b).trans (decide_eq_true before)
    cases place : n.extent? with
    | none => simp [Number.less, place] at less
    | some x =>
      have middle : (Number.int b).extent? = some (.point (b * perOne)) := rfl
      have start : (Number.int a).extent? = some (.point (a * perOne)) := rfl
      simp only [Number.less, place, middle, start] at first less ⊢
      exact Extent.less_trans first less

/-- Only a number has an order with a number. -/
theorem Value.number?_of_compare_number {value : Value} {comparison : Comparison} {n : Number} {answer : Bool}
    (ended : (Value.number n).compare comparison value = .ok answer) :
    ∃ m, value.number? = some m ∧ comparison.numbers n m = answer := by
  obtain ⟨m, counts⟩ : ∃ m, value.number? = some m := by
    cases value with
    | scalar s =>
      cases s with
      | bool | number => exact ⟨_, rfl⟩
      | _ => cases ended
    | _ => cases ended
  rw [compare_of_number? (a := n) comparison rfl counts] at ended
  exact ⟨m, counts, Except.ok.inj ended⟩

namespace Scoring

open Number (Rounds Held)

/-- The share of the points that a text earns with some of the optional keywords. Every operation is rounded. -/
def Credit (found total : Nat) (credit : ℚ) : Prop :=
  ∃ base each share part, baseCredit.amount? = some base ∧ shareCredit.amount? = some each ∧
    Rounds (found / total) share ∧ Rounds (each * share) part ∧ Rounds (base + part) credit

section Credits

variable {found found' total : Nat} {base each credit credit' : ℚ}

theorem baseCredit_rounds (stands : baseCredit.amount? = some base) : Rounds (6 / 10) base := by
  have rounds := Number.Binary64.ofRatio_rounds (by decide) stands
  simpa using rounds

theorem shareCredit_rounds (stands : shareCredit.amount? = some each) : Rounds (4 / 10) each := by
  have rounds := Number.Binary64.ofRatio_rounds (by decide) stands
  simpa using rounds

theorem Credit.mono (earns : Credit found total credit) (earns' : Credit found' total credit') (more : found ≤ found') :
    credit ≤ credit' := by
  obtain ⟨base, each, share, part, stands, stands', shares, parts, sums⟩ := earns
  obtain ⟨_, _, share', part', same, same', shares', parts', sums'⟩ := earns'
  cases stands.symm.trans same
  cases stands'.symm.trans same'
  have some : 0 ≤ each := (shareCredit_rounds stands').ge Number.held_zero (by norm_num)
  have counts : (found : ℚ) / total ≤ found' / total :=
    div_le_div_of_nonneg_right (by exact_mod_cast more) (Nat.cast_nonneg total)
  have parted := parts.mono parts' (mul_le_mul_of_nonneg_left (shares.mono shares' counts) some)
  exact sums.mono sums' (by linarith)

/-- Less than half of the optional keywords earn well short of all points. -/
theorem Credit.short (earns : Credit found total credit) (few : 2 * found < total) : 0 ≤ credit ∧ credit ≤ 7 / 8 := by
  obtain ⟨base, each, share, part, stands, stands', shares, parts, sums⟩ := earns
  have bases := baseCredit_rounds stands
  have eaches := shareCredit_rounds stands'
  have least : 0 ≤ base := bases.ge Number.held_zero (by norm_num)
  have most := bases.le_add (6 / 10) 1 (by norm_num) le_rfl (by norm_num)
  have least' : 0 ≤ each := eaches.ge Number.held_zero (by norm_num)
  have half : Held (1 / 2) := by simpa using @Number.held_of_small 1 0 (by decide)
  have most' : each ≤ 1 / 2 := eaches.le half (by norm_num)
  have counts : (found : ℚ) / total ≤ 1 / 2 := by
    have positive : (0 : ℚ) < total := by exact_mod_cast Nat.lt_of_le_of_lt (Nat.zero_le _) few
    have few : (2 * found : ℚ) < total := by exact_mod_cast few
    rw [div_le_iff₀ positive]
    linarith
  have some : 0 ≤ share := shares.ge Number.held_zero (by positivity)
  have shared : share ≤ 1 / 2 := shares.le half counts
  have least'' : 0 ≤ part := parts.ge Number.held_zero (mul_nonneg least' some)
  have product : each * share ≤ 1 / 2 * (1 / 2) := mul_le_mul most' shared some (by norm_num)
  have most'' := parts.le_add (1 / 4) 1 (by norm_num) (by linarith) (by norm_num)
  refine ⟨sums.ge Number.held_zero (by linarith), ?_⟩
  have above := sums.le_add (base + part) 1 (by linarith) le_rfl (by linarith)
  linarith

theorem exists_shareCredit : ∃ each, shareCredit.amount? = some each := by
  have within : shareCredit.Within 0 := Number.Binary64.ofRatio_within (by decide) (by decide) (by decide)
  exact within.exists_amount?

variable {stakes : Stakes} {n m m' : Number} {value value' : Value} {amount amount' : ℚ}

/-- The points of a text are all of them from half of the optional keywords on, and otherwise their share. -/
theorem exists_of_creditFor (worth : stakes.points.number? = some n) (ended : creditFor stakes found total = .ok value) :
    ∃ m, value.number? = some m ∧ (total ≤ 2 * found ∧ m = n ∨ 2 * found < total ∧
      ∃ y, n.mul (.float y) = .ok m ∧ ∀ credit, y.amount? = some credit → Credit found total credit) := by
  unfold creditFor at ended
  simp only at ended
  split at ended
  next half =>
    cases ended
    exact ⟨n, worth, .inl ⟨half, rfl⟩⟩
  next few =>
    split at ended
    next some =>
      rw [Value.mul_of_number? worth rfl] at ended
      obtain ⟨m, multiplied, rfl⟩ := Fault.of_map_ok ended
      refine ⟨m, rfl, .inr ⟨Nat.not_le.mp few, _, multiplied, fun credit stands => ?_⟩⟩
      obtain ⟨base, part, bases, parted, sums⟩ := Number.Binary64.exists_of_add stands
      obtain ⟨each, share, eaches, shared, parts⟩ := Number.Binary64.exists_of_mul parted
      have shares := Number.Binary64.ofRatio_rounds (Nat.lt_of_le_of_lt (Nat.zero_le _) (Nat.not_le.mp few)) shared
      exact ⟨base, each, share, part, bases, eaches, by simpa using shares, parts, sums⟩
    next none =>
      rw [Value.mul_of_number? worth rfl] at ended
      obtain ⟨m, multiplied, rfl⟩ := Fault.of_map_ok ended
      refine ⟨m, rfl, .inr ⟨Nat.not_le.mp few, _, multiplied, fun base stands => ?_⟩⟩
      obtain ⟨each, eaches⟩ := exists_shareCredit
      obtain rfl := Nat.eq_zero_of_not_pos none
      refine ⟨base, each, 0, 0, stands, eaches, ?_, ?_, ?_⟩
      · simpa using Rounds.refl Number.held_zero
      · simpa using Rounds.refl Number.held_zero
      · simpa using Rounds.refl (Number.Binary64.held_of_amount? stands)

/-- With more of the optional keywords no less is earned, also where the points themselves are rounded for a share. -/
theorem creditFor_mono (worth : stakes.points.number? = some n) (least : Comparison.greaterEqual.numbers n (.int 0) = true)
    (more : found ≤ found') (first : creditFor stakes found total = .ok value)
    (second : creditFor stakes found' total = .ok value') (left : value.number? = some m) (right : value'.number? = some m')
    (stands : m.amount? = some amount) (stands' : m'.amount? = some amount') : amount ≤ amount' := by
  have positive {p : ℚ} (points : n.amount? = some p) : 0 ≤ p :=
    (Comparison.greaterEqual_iff_of_amount? points rfl).mp least
  obtain ⟨_, same, ways⟩ := exists_of_creditFor worth first
  obtain ⟨_, same', ways'⟩ := exists_of_creditFor worth second
  cases left.symm.trans same
  cases right.symm.trans same'
  obtain ⟨_, rfl⟩ | ⟨few, y, multiplied, credits⟩ := ways <;> obtain ⟨_, rfl⟩ | ⟨few', y', multiplied', credits'⟩ := ways'
  · exact (Option.some.inj (stands.symm.trans stands')).le
  · omega
  · obtain ⟨p, p', credit, points, near, shown, rounds⟩ := Number.exists_of_mul_float multiplied stands
    cases points.symm.trans stands'
    exact Number.share_le points near (positive points) ((credits _ shown).short few).2 rounds
  · obtain ⟨p, p', credit, points, near, shown, rounds⟩ := Number.exists_of_mul_float multiplied stands
    obtain ⟨_, p'', credit', points', near', shown', rounds'⟩ := Number.exists_of_mul_float multiplied' stands'
    cases points.symm.trans points'
    have grows := (credits _ shown).mono (credits' _ shown') more
    rw [near'.unique near] at rounds'
    exact rounds.mono rounds' (mul_le_mul_of_nonneg_left grows (near.ge Number.held_zero (positive points)))

theorem creditFor_nonneg (worth : stakes.points.number? = some n)
    (least : Comparison.greaterEqual.numbers n (.int 0) = true) (ended : creditFor stakes found total = .ok value) :
    ∃ m, value.number? = some m ∧ ∀ amount, m.amount? = some amount → 0 ≤ amount := by
  have positive {p : ℚ} (points : n.amount? = some p) : 0 ≤ p :=
    (Comparison.greaterEqual_iff_of_amount? points rfl).mp least
  obtain ⟨m, counts, ⟨_, rfl⟩ | ⟨few, y, multiplied, credits⟩⟩ := exists_of_creditFor worth ended
  · exact ⟨m, counts, fun amount stands => positive stands⟩
  · refine ⟨m, counts, fun amount stands => ?_⟩
    obtain ⟨p, p', credit, points, near, shown, rounds⟩ := Number.exists_of_mul_float multiplied stands
    exact rounds.ge Number.held_zero
      (mul_nonneg (near.ge Number.held_zero (positive points)) ((credits _ shown).short few).1)

end Credits

/-- The keywords of a rule. -/
def keywordsOf (rule : Fields) : Value :=
  (Fields.get rule "keywords").orElse (.ofFields [("required", .list []), ("optional", .list [])])

/-- The keywords that a rule has under a name, one by one. -/
def wordsUnder (rule : Fields) (name : String) : List Value :=
  (keywordList (keywordsOf rule) name (.list []) >>= Value.items).toOption.getD []

/-- Whether optional keywords matter. -/
def sharesCredit (rule : Fields) : Bool :=
  (setting rule "partialCredit" (.bool true)).truthy &&
    ((keywordList (keywordsOf rule) "optional" (.list [])).map Value.truthy).toOption.getD false

/-- A text that is as long as a rule asks for, and has all keywords that it requires. -/
structure Passes (rule : Fields) (text : String) : Prop where
  long : (Value.int text.length).compare .less (setting rule "minLength" (.int 0)) = .ok false
  required : ∀ word ∈ wordsUnder rule "required", mentioned text word = .ok true

/-- A text in lower case is at least as long as another one, and it has all keywords of a rule that the other one has. -/
structure SaysMore (rule : Fields) (less more : String) : Prop where
  long : less.length ≤ more.length
  required : ∀ word, Value.text word ∈ wordsUnder rule "required" →
    Text.contains less (Text.lower word) = true → Text.contains more (Text.lower word) = true
  optional : ∀ word, Value.text word ∈ wordsUnder rule "optional" →
    Text.contains less (Text.lower word) = true → Text.contains more (Text.lower word) = true

/-- What a text that passes is worth before it is rounded. -/
def worthOf (rule : Fields) (text : String) : Except Fault Value :=
  if sharesCredit rule then do
    let found ← (wordsUnder rule "optional").filterM (mentioned text)
    creditFor (.ofRule rule) found.length (wordsUnder rule "optional").length
  else .ok (Stakes.ofRule rule).points

section Answers

variable {answer other : Value} {rule : Fields} {score better : Score} {text more : String} {words : List Value}

theorem wordsUnder_of_items {name : String} {list : Value}
    (reads : keywordList (keywordsOf rule) name (.list []) = .ok list) (listed : list.items = .ok words) :
    wordsUnder rule name = words := by
  unfold wordsUnder
  rw [reads]
  show list.items.toOption.getD [] = words
  rw [listed]
  rfl

theorem sharesCredit_eq {optional : Value} (reads : keywordList (keywordsOf rule) "optional" (.list []) = .ok optional) :
    sharesCredit rule = ((setting rule "partialCredit" (.bool true)).truthy && optional.truthy) := by
  unfold sharesCredit
  rw [reads]
  rfl

theorem missingKeywords_isEmpty {missing : List Value} (looked : missingKeywords text words = .ok missing) :
    missing.isEmpty = true ↔ ∀ word ∈ words, mentioned text word = .ok true := by
  obtain ⟨lacks, each, rfl⟩ := Fault.of_filterM_ok looked
  rw [List.isEmpty_iff, List.filter_eq_nil_iff]
  refine forall₂_congr fun word member => ?_
  obtain ⟨has, found, lacking⟩ := Fault.of_bind_ok (each word member)
  rw [found, ← Except.ok.inj lacking]
  cases has <;> simp

theorem creditFor_of_credit {stakes : Stakes} {optional : Value} {result : Value × Value}
    (listed : optional.items = .ok words) (ended : credit stakes text optional = .ok result) :
    (words.filterM (mentioned text) >>= fun found => creditFor stakes found.length words.length) = .ok result.1 := by
  unfold credit at ended
  rw [listed] at ended
  obtain ⟨found, kept, ended⟩ := Fault.of_bind_ok (show (words.filterM (mentioned text) >>= _) = _ from ended)
  obtain ⟨earned, worth, ended⟩ := Fault.of_bind_ok ended
  rw [kept]
  refine worth.trans (congrArg Except.ok ?_)
  split at ended
  · obtain ⟨hints, _, ended⟩ := Fault.of_bind_ok ended
    cases ended
    rfl
  · cases ended
    rfl

/-- A text is right just if it passes; then its worth is rounded, and otherwise the penalty is lost. -/
theorem keywords_cases (ended : keywords answer rule = .ok score) :
    score.correct = false ∧ ¬Passes rule (Text.lower (answerText answer)) ∧
        (Stakes.ofRule rule).lost = .ok score.earned ∨
      score.correct = true ∧ Passes rule (Text.lower (answerText answer)) ∧
        (worthOf rule (Text.lower (answerText answer)) >>= (roundHalfUp · 2)) = .ok score.earned := by
  unfold keywords at ended
  simp only at ended
  obtain ⟨required, reads, ended⟩ := Fault.of_bind_ok ended
  obtain ⟨optional, reads', ended⟩ := Fault.of_bind_ok ended
  obtain ⟨lost, costs, ended⟩ := Fault.of_bind_ok ended
  obtain ⟨short, measured, ended⟩ := Fault.of_bind_ok ended
  cases short with
  | true =>
    cases ended
    exact .inl ⟨rfl, fun passes => (nomatch measured.symm.trans passes.long), costs⟩
  | false =>
    obtain ⟨words, listed, ended⟩ := Fault.of_bind_ok (show (required.items >>= _) = _ from ended)
    obtain ⟨missing, looked, ended⟩ := Fault.of_bind_ok ended
    have known := wordsUnder_of_items reads listed
    have complete := missingKeywords_isEmpty looked
    split at ended
    next lacking =>
      obtain ⟨names, _, ended⟩ := Fault.of_bind_ok ended
      cases ended
      refine .inl ⟨rfl, fun passes => ?_, costs⟩
      rw [complete.mpr (known ▸ passes.required)] at lacking
      cases lacking
    next all =>
      have passes : Passes rule (Text.lower (answerText answer)) :=
        ⟨measured, known.symm ▸ complete.mp (by simpa using all)⟩
      refine .inr ?_
      rw [worthOf, sharesCredit_eq reads']
      split at ended
      next partly =>
        rw [if_pos partly]
        obtain ⟨result, scored, ended⟩ := Fault.of_bind_ok ended
        obtain ⟨earned, rounded, ended⟩ := Fault.of_bind_ok ended
        cases ended
        obtain ⟨items, listed', _⟩ := Fault.of_bind_ok scored
        rw [wordsUnder_of_items reads' listed', creditFor_of_credit listed' scored]
        exact ⟨rfl, passes, rounded⟩
      next fully =>
        rw [if_neg fully]
        obtain ⟨_, full, ended⟩ := Fault.of_bind_ok ended
        cases full
        obtain ⟨earned, rounded, ended⟩ := Fault.of_bind_ok ended
        cases ended
        exact ⟨rfl, passes, rounded⟩

theorem mentioned_eq_true {word : Value} :
    mentioned text word = .ok true ↔ ∃ s, word = .text s ∧ Text.contains text (Text.lower s) = true := by
  constructor
  · intro ended
    obtain ⟨s, shown, has⟩ := Fault.of_bind_ok ended
    unfold Value.asText at shown
    split at shown
    · cases shown
      exact ⟨s, rfl, Except.ok.inj has⟩
    · cases shown
  · rintro ⟨s, rfl, has⟩
    exact congrArg Except.ok has

theorem SaysMore.passes (fuller : SaysMore rule text more) (passes : Passes rule text) : Passes rule more := by
  refine ⟨?_, fun word member => ?_⟩
  · obtain ⟨least, counts, compared⟩ := Value.number?_of_compare_number passes.long
    rw [Value.compare_of_number? (a := .int more.length) .less rfl counts]
    have grows : Comparison.less.numbers (.int more.length) least = false := by
      refine Bool.eq_false_iff.mpr fun short => ?_
      exact Bool.false_ne_true (compared.symm.trans (Number.less_int_of_le (by exact_mod_cast fuller.long) short))
    exact congrArg Except.ok grows
  · obtain ⟨s, rfl, has⟩ := mentioned_eq_true.mp (passes.required word member)
    exact mentioned_eq_true.mpr ⟨s, rfl, fuller.required s member has⟩

section Worth

variable {n : Number} (worth : (setting rule "points" (.int 1)).number? = some n)
  (least : Comparison.greaterEqual.numbers n (.int 0) = true)

include worth least

theorem worthOf_nonneg {value : Value} (ended : worthOf rule text = .ok value) :
    ∃ m, value.number? = some m ∧ ∀ amount, m.amount? = some amount → 0 ≤ amount := by
  unfold worthOf at ended
  split at ended
  · obtain ⟨found, _, ended⟩ := Fault.of_bind_ok ended
    exact creditFor_nonneg worth least ended
  · cases ended
    exact ⟨n, worth, fun amount stands => (Comparison.greaterEqual_iff_of_amount? stands rfl).mp least⟩

theorem worthOf_mono {value value' : Value} {m m' : Number} {amount amount' : ℚ} (fuller : SaysMore rule text more)
    (first : worthOf rule text = .ok value) (second : worthOf rule more = .ok value') (left : value.number? = some m)
    (right : value'.number? = some m') (stands : m.amount? = some amount) (stands' : m'.amount? = some amount') :
    amount ≤ amount' := by
  unfold worthOf at first second
  split at first
  next shares =>
    rw [if_pos shares] at second
    obtain ⟨found, kept, first⟩ := Fault.of_bind_ok first
    obtain ⟨found', kept', second⟩ := Fault.of_bind_ok second
    refine creditFor_mono worth least ?_ first second left right stands stands'
    obtain ⟨has, each, rfl⟩ := Fault.of_filterM_ok kept
    obtain ⟨has', each', rfl⟩ := Fault.of_filterM_ok kept'
    rw [← List.countP_eq_length_filter, ← List.countP_eq_length_filter]
    refine List.countP_mono_left fun word member kept => ?_
    obtain ⟨s, rfl, has⟩ := mentioned_eq_true.mp ((each word member).trans (congrArg Except.ok kept))
    have found := mentioned_eq_true.mpr ⟨s, rfl, fuller.optional s member has⟩
    exact Except.ok.inj ((each' _ member).symm.trans found)
  next full =>
    rw [if_neg full] at second
    cases first
    cases second
    cases left.symm.trans right
    exact (Option.some.inj (stands.symm.trans stands')).le

/-- What is earned by a text that passes is its worth in hundredths. -/
theorem exists_of_worthOf {earned : Value} (ended : (worthOf rule text >>= (roundHalfUp · 2)) = .ok earned) :
    ∃ value m a points e, worthOf rule text = .ok value ∧ value.number? = some m ∧ m.amount? = some a ∧ 0 ≤ a ∧
      earned = .number points ∧ points.amount? = some e ∧ ToHundredths a e := by
  obtain ⟨value, weighed, rounded⟩ := Fault.of_bind_ok ended
  obtain ⟨m, counts, positive⟩ := worthOf_nonneg worth least weighed
  obtain ⟨a, x, e, stands, shape, shown, rounds⟩ := exists_of_roundHalfUp counts rounded
  exact ⟨value, m, a, .float x, e, weighed, counts, stands, positive a stands, shape, shown, rounds⟩

end Worth

/-- What a wrong answer earns is not above nothing. It may be without end. -/
theorem exists_of_lost {stakes : Stakes} {lost : Value} (ended : stakes.lost = .ok lost) :
    ∃ n, lost = .number n ∧ Comparison.greaterEqual.numbers (.int 0) n = true := by
  unfold Stakes.lost at ended
  obtain ⟨positive, tested, ended⟩ := Fault.of_bind_ok ended
  cases positive with
  | false =>
    cases ended
    exact ⟨.int 0, rfl, Comparison.greaterEqual_iff.mpr ⟨_, _, rfl, rfl, .inr rfl⟩⟩
  | true =>
    obtain ⟨n, counts, above⟩ := Value.number?_of_compare tested
    rw [if_pos rfl, Value.neg_of_number? counts] at ended
    cases ended
    exact ⟨n.neg, rfl, Comparison.greaterEqual_neg above⟩

/-- A text that says more than another one is right where that one is, and earns no less. -/
theorem keywords_mono (least : (setting rule "points" (.int 1)).compare .greaterEqual (.int 0) = .ok true)
    (fuller : SaysMore rule (Text.lower (answerText answer)) (Text.lower (answerText other)))
    (first : keywords answer rule = .ok score) (second : keywords other rule = .ok better) :
    (score.correct = true → better.correct = true) ∧
      better.earned.compare .greaterEqual score.earned = .ok true := by
  obtain ⟨n, worth, least⟩ := Value.number?_of_compare least
  obtain ⟨wrong, _, costs⟩ | ⟨right, passes, weighed⟩ := keywords_cases first <;>
    obtain ⟨wrong', fails, costs'⟩ | ⟨right', _, weighed'⟩ := keywords_cases second
  · obtain ⟨lost, shape, below⟩ := exists_of_lost costs
    rw [Except.ok.inj (costs'.symm.trans costs), shape, Value.compare_number, wrong]
    obtain ⟨_, _, _, place, _⟩ := Comparison.greaterEqual_iff.mp below
    exact ⟨nofun, congrArg Except.ok (Comparison.greaterEqual_iff.mpr ⟨_, _, place, place, .inr rfl⟩)⟩
  · obtain ⟨lost, shape, below⟩ := exists_of_lost costs
    obtain ⟨_, _, a, points, e, _, _, _, some, shape', shown, rounds⟩ := exists_of_worthOf worth least weighed'
    have above : 0 ≤ e := by simpa using rounds.ge 0 (by decide) (by simpa using some)
    have above : Comparison.greaterEqual.numbers points (.int 0) = true :=
      (Comparison.greaterEqual_iff_of_amount? shown rfl).mpr (by simpa using above)
    rw [shape, shape']
    refine ⟨fun _ => right', (Value.compare_number _ _ _).trans (congrArg Except.ok ?_)⟩
    exact Comparison.greaterEqual_trans above below
  · exact absurd (fuller.passes passes) fails
  · obtain ⟨_, _, a, _, e, known, counts, stands, _, shape, shown, rounds⟩ := exists_of_worthOf worth least weighed
    obtain ⟨_, _, a', _, e', known', counts', stands', _, shape', shown', rounds'⟩ := exists_of_worthOf worth least weighed'
    have grows := rounds.mono rounds' (worthOf_mono worth least fuller known known' counts counts' stands stands')
    rw [shape, shape']
    refine ⟨fun _ => right', (Value.compare_number _ _ _).trans (congrArg Except.ok ?_)⟩
    exact (Comparison.greaterEqual_iff_of_amount? shown' shown).mpr grows

end Answers

namespace Essay

def rule : Fields := [
  (.text "points", .int 10),
  (.text "penalty", .int 2),
  (.text "minLength", .int 20),
  (.text "keywords", .ofFields [
    ("required", .list [.text "Chlorophyll"]),
    ("optional", .list [.text "light", .text "water", .text "sugar", .text "air", .text "light"])])]

def brief : Value := .text "chlorophyll and light"

def longer : Value := .text "CHLOROPHYLL, light and air"

theorem saysMore : SaysMore rule (Text.lower (answerText brief)) (Text.lower (answerText longer)) := by
  have required : wordsUnder rule "required" = [.text "Chlorophyll"] := rfl
  have optional : wordsUnder rule "optional" =
    ["light", "water", "sugar", "air", "light"].map Value.text := rfl
  refine ⟨by decide +kernel, fun word member _ => ?_, fun word member has => ?_⟩
  · rw [required, List.mem_singleton] at member
    cases member
    decide +kernel
  · have each : ∀ word ∈ ["light", "water", "sugar", "air", "light"],
        Text.contains (Text.lower (answerText brief)) (Text.lower word) = true →
          Text.contains (Text.lower (answerText longer)) (Text.lower word) = true := by decide +kernel
    rw [optional, List.mem_map] at member
    obtain ⟨_, listed, same⟩ := member
    cases same
    exact each word listed has

end Essay

open Essay in
/-- A keyword that is listed twice counts twice: two of five, and three of five, which is more than half. -/
theorem keywords_mono_essay : ∃ score better, keywords brief rule = .ok score ∧ keywords longer rule = .ok better ∧
    score.earned.compare .less (.int 8) = .ok true ∧ (score.correct = true → better.correct = true) ∧
      better.earned.compare .greaterEqual score.earned = .ok true := by
  obtain ⟨score, scored, partly⟩ : ∃ score, keywords brief rule = .ok score ∧
      score.earned.compare .less (.int 8) = .ok true := by
    have known : ((keywords brief rule).toOption.map fun score => (score.earned.compare .less (.int 8)).toOption) =
      some (some true) := by decide +kernel
    obtain ⟨score, scored, compared⟩ := Option.map_eq_some_iff.mp known
    exact ⟨score, ok_of_toOption scored, ok_of_toOption compared⟩
  obtain ⟨better, graded⟩ : ∃ better, keywords longer rule = .ok better := by
    have known : (keywords longer rule).toOption.isSome = true := by decide +kernel
    obtain ⟨better, graded⟩ := Option.isSome_iff_exists.mp known
    exact ⟨better, ok_of_toOption graded⟩
  refine ⟨score, better, scored, graded, partly, ?_⟩
  exact keywords_mono (ok_of_toOption (by decide +kernel)) saysMore scored graded

end Scoring

end FormRules

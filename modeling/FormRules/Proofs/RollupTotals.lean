import FormRules.Proofs.RightAnswers
import FormRules.Proofs.RoundingOrder
import FormRules.Scoring.Rollup

/-! What sums of scores keep. As long as numbers hold the whole numbers on the way, nothing is lost when whole points are
added up, to the totals as well as to the categories, and rounding the results leaves them alone. -/

namespace FormRules

attribute [local irreducible] Number.perOne Number.overflow

namespace Number

/-- A sum is one of whole numbers, or of two floating point numbers. -/
theorem add_cases {first second sum : Number} (added : first.add second = .ok sum) :
    (∃ a b, first = .int a ∧ second = .int b ∧ sum = .int (a + b)) ∨
      ∃ x y, first.toFloat = .ok x ∧ second.toFloat = .ok y ∧ sum = .float (x.add y) := by
  unfold add combine at added
  split at added
  next a b =>
    cases added
    exact .inl ⟨a, b, rfl, rfl, rfl⟩
  next =>
    obtain ⟨x, reads, added⟩ := Fault.of_bind_ok added
    obtain ⟨y, shows, added⟩ := Fault.of_bind_ok added
    cases added
    exact .inr ⟨x, y, reads, shows, rfl⟩

variable {first second n sum : Number} {a b count : Int} {bits : Nat}

theorem within_of_amount? (stands : n.amount? = some (count : ℚ)) (few : count.natAbs ≤ 2 ^ bits) : n.Within bits := by
  cases n with
  | int m =>
    obtain rfl : m = count := by exact_mod_cast Option.some.inj stands
    exact .int few
  | float x =>
    cases x with
    | nan => cases stands
    | infinite => cases stands
    | finite negative magnitude =>
      have same : (Binary64.signed negative magnitude : ℚ) / perOne = count := Option.some.inj stands
      rw [div_eq_iff perOne_above.ne'] at same
      have whole : Binary64.signed negative magnitude = count * perOne := by exact_mod_cast same
      refine .float (.finite ?_)
      rw [← Binary64.natAbs_signed negative magnitude, whole, Int.natAbs_mul, Int.natAbs_natCast]
      exact Nat.mul_le_mul_right _ few

/-- A whole number that takes 53 bits has the same floating point form. -/
theorem amount?_of_toFloat {x : Binary64} (stands : n.amount? = some (count : ℚ)) (few : count.natAbs ≤ 2 ^ 53)
    (reads : n.toFloat = .ok x) : x.Within 53 ∧ x.amount? = some (count : ℚ) := by
  obtain ⟨_, same, within⟩ := (within_of_amount? stands few).toFloat (by decide)
  cases same.symm.trans reads
  obtain ⟨amount, shown⟩ := within.exists_amount?
  obtain ⟨_, exact, rounds⟩ := exists_of_toFloat reads shown
  cases stands.symm.trans exact
  exact ⟨within, rounds.eq (held_int few) ▸ shown⟩

theorem amount?_of_add (left : first.amount? = some (a : ℚ)) (right : second.amount? = some (b : ℚ))
    (few : a.natAbs ≤ 2 ^ 53) (few' : b.natAbs ≤ 2 ^ 53) (room : (a + b).natAbs ≤ 2 ^ 53)
    (added : first.add second = .ok sum) : sum.amount? = some ((a + b : Int) : ℚ) := by
  obtain ⟨m, m', rfl, rfl, rfl⟩ | ⟨x, y, reads, shows, rfl⟩ := add_cases added
  · obtain rfl : m = a := by exact_mod_cast Option.some.inj left
    obtain rfl : m' = b := by exact_mod_cast Option.some.inj right
    rfl
  · obtain ⟨within, stands⟩ := amount?_of_toFloat left few reads
    obtain ⟨within', stands'⟩ := amount?_of_toFloat right few' shows
    obtain ⟨amount, shown⟩ := (within.add within' (by decide)).exists_amount?
    obtain ⟨_, _, same, same', rounds⟩ := Binary64.exists_of_add shown
    cases stands.symm.trans same
    cases stands'.symm.trans same'
    rw [← Int.cast_add] at rounds
    exact shown.trans (congrArg some (rounds.eq (held_int room)))

end Number

namespace Value

/-- A value counts as a whole number, be it one, a floating point number or a truth value. -/
def Counts (value : Value) (count : Int) : Prop := ∃ n, value.number? = some n ∧ n.amount? = some (count : ℚ)

variable {first second value sum : Value} {a b count : Int}

theorem counts_int (count : Int) : (Value.int count).Counts count := ⟨.int count, rfl, rfl⟩

theorem add_of_number? {m n : Number} (left : first.number? = some m) (right : second.number? = some n) (sign : String) :
    first.add second sign = (m.add n).map .number := by
  have numbers : first.add second sign = onNumbers sign Number.add first second := by
    unfold add
    split
    · cases left
    · cases left
    · cases left
    · cases left
    · rfl
  rw [numbers, onNumbers, left, right]

theorem Counts.add {sign : String} (left : first.Counts a) (right : second.Counts b) (few : a.natAbs ≤ 2 ^ 53)
    (few' : b.natAbs ≤ 2 ^ 53) (room : (a + b).natAbs ≤ 2 ^ 53) (added : first.add second sign = .ok sum) :
    sum.Counts (a + b) := by
  obtain ⟨m, counts, stands⟩ := left
  obtain ⟨n, counts', stands'⟩ := right
  rw [add_of_number? counts counts'] at added
  obtain ⟨total, summed, rfl⟩ := Fault.of_map_ok added
  exact ⟨total, rfl, Number.amount?_of_add stands stands' few few' room summed⟩

end Value

namespace Scoring

variable {value : Value} {values : List Value} {sum count more : Int} {size extra : Nat}

theorem counts_of_roundHalfUp {earned : Value} (counts : value.Counts count) (few : 25 * count.natAbs ≤ 2 ^ 53)
    (ended : roundHalfUp value 2 = .ok earned) : earned.Counts count := by
  obtain ⟨n, counts, stands⟩ := counts
  obtain ⟨a, x, e, stands', rfl, shown, rounds⟩ := exists_of_roundHalfUp counts ended
  cases stands.symm.trans stands'
  exact ⟨.float x, rfl, rounds.eq few ▸ shown⟩

/-- Values that count as whole numbers, with a certain sum and magnitudes that are together no more than a size. -/
def AddUp (values : List Value) (sum : Int) (size : Nat) : Prop :=
  ∃ counts : List Int, List.Forall₂ Value.Counts values counts ∧ counts.sum = sum ∧ (counts.map Int.natAbs).sum ≤ size

theorem addUp_nil : AddUp [] sum size ↔ sum = 0 := by
  constructor
  · rintro ⟨_, ⟨⟩, rfl, _⟩
    rfl
  · rintro rfl
    exact ⟨[], .nil, rfl, Nat.zero_le _⟩

theorem addUp_cons : AddUp (value :: values) sum size ↔
    ∃ count rest few, value.Counts count ∧ AddUp values rest few ∧ sum = count + rest ∧ count.natAbs + few ≤ size := by
  constructor
  · rintro ⟨_, whole, rfl, small⟩
    obtain ⟨count, rest, counts, all, rfl⟩ := List.forall₂_cons_left_iff.mp whole
    exact ⟨count, _, _, counts, ⟨rest, all, rfl, le_rfl⟩, List.sum_cons, by simpa using small⟩
  · rintro ⟨count, _, few, counts, ⟨rest, all, rfl, small⟩, rfl, room⟩
    refine ⟨count :: rest, .cons counts all, List.sum_cons, ?_⟩
    rw [List.map_cons, List.sum_cons]
    omega

theorem addUp_replicate (counts : value.Counts count) (times : Nat) :
    AddUp (.replicate times value) (times * count) (times * count.natAbs) := by
  induction times with
  | zero => exact addUp_nil.mpr (by simp)
  | succ times ih =>
    refine addUp_cons.mpr ⟨count, _, _, counts, ih, ?_, ?_⟩
    · push_cast
      ring
    · rw [Nat.succ_mul, Nat.add_comm]

theorem AddUp.natAbs_le (adds : AddUp values sum size) : sum.natAbs ≤ size := by
  induction values generalizing sum size with
  | nil => simp [addUp_nil.mp adds]
  | cons value values ih =>
    obtain ⟨count, rest, few, _, rests, rfl, room⟩ := addUp_cons.mp adds
    have := ih rests
    omega

theorem AddUp.mono (adds : AddUp values sum size) (less : size ≤ extra) : AddUp values sum extra := by
  obtain ⟨counts, all, same, small⟩ := adds
  exact ⟨counts, all, same, small.trans less⟩

section Categories

variable {share : Category → Value} {categories : Keyed Category} {key : Scalar} {category : Category}

/-- What is added to one category is added to all of them together. -/
theorem AddUp.insert (adds : AddUp (categories.map fun entry => share entry.2) sum size)
    (nothing : (share {}).Counts 0) (grows : ∀ held : Int, held.natAbs ≤ size →
      (share ((Keyed.find? categories key).getD {})).Counts held → (share category).Counts (held + count)) :
    AddUp ((Keyed.insert categories key category).map fun entry => share entry.2) (sum + count) (size + count.natAbs) := by
  -- The search and the insertion stop at the same category, so the one that grows is the one that was found.
  induction categories generalizing sum size with
  | nil =>
    have new := grows 0 (Nat.zero_le _) nothing
    rw [addUp_nil.mp adds]
    exact addUp_cons.mpr ⟨_, 0, 0, new, addUp_nil.mpr rfl, by omega, by omega⟩
  | cons entry categories ih =>
    obtain ⟨held, old⟩ := entry
    obtain ⟨first, rest, few, counts, others, rfl, room⟩ := addUp_cons.mp adds
    unfold Keyed.insert
    by_cases here : held.coincides key = true
    · rw [Keyed.find?_cons, if_pos here] at grows
      rw [if_pos here]
      exact addUp_cons.mpr ⟨_, rest, few, grows first (by omega) counts, others, by omega, by omega⟩
    · rw [Keyed.find?_cons, if_neg here] at grows
      rw [if_neg here]
      have later := ih others fun other small => grows other (by omega)
      exact addUp_cons.mpr ⟨first, _, _, counts, later, by omega, by omega⟩

end Categories

/-- The scores of the names that have one, in the order of the names and as often as they are listed. -/
def listedScores (scores : Keyed Score) (names : List Value) : List Score :=
  names.filterMap fun name => name.asKey.toOption.bind (Keyed.find? scores)

section Steps

variable {scores : Keyed Score} {mapping : Value} {sums result : Sums}

/-- A name that has no score is passed over, and any other one has its score added. -/
theorem sumUp_cons {name : Value} {names : List Value} (ended : sumUp scores mapping sums (name :: names) = .ok result) :
    listedScores scores (name :: names) = listedScores scores names ∧ sumUp scores mapping sums names = .ok result ∨
      ∃ score next, listedScores scores (name :: names) = score :: listedScores scores names ∧
        sums.add score (categoryOf mapping name) = .ok next ∧ sumUp scores mapping next names = .ok result := by
  obtain ⟨key, named, ended⟩ := Fault.of_bind_ok (show (name.asKey >>= _) = _ from ended)
  have look : name.asKey.toOption.bind (Keyed.find? scores) = Keyed.find? scores key := by rw [named]; rfl
  cases found : Keyed.find? scores key with
  | none =>
    rw [found] at ended
    exact .inl ⟨List.filterMap_cons_none (look.trans found), ended⟩
  | some score =>
    rw [found] at ended
    obtain ⟨next, added, ended⟩ := Fault.of_bind_ok ended
    exact .inr ⟨score, next, List.filterMap_cons_some (look.trans found), added, ended⟩

theorem Sums.add_cases {score : Score} {key? : Except Fault Scalar} (ended : sums.add score key? = .ok result) :
    ∃ key category, sums.total.add score.earned "+=" = .ok result.total ∧
      sums.most.add score.points "+=" = .ok result.most ∧
      ((Keyed.find? sums.categories key).getD {}).score.add score.earned "+=" = .ok category.score ∧
      ((Keyed.find? sums.categories key).getD {}).most.add score.points "+=" = .ok category.most ∧
      result.categories = Keyed.insert sums.categories key category ∧ result.breakdown = sums.breakdown ++ [score] := by
  obtain ⟨total, totals, ended⟩ := Fault.of_bind_ok ended
  obtain ⟨most, mosts, ended⟩ := Fault.of_bind_ok ended
  obtain ⟨key, _, ended⟩ := Fault.of_bind_ok ended
  obtain ⟨share, shares, ended⟩ := Fault.of_bind_ok ended
  obtain ⟨limit, limits, ended⟩ := Fault.of_bind_ok ended
  cases ended
  exact ⟨key, ⟨share, limit, _⟩, totals, mosts, shares, limits, rfl, rfl⟩

theorem sumUp_breakdown {names : List Value} (ended : sumUp scores mapping sums names = .ok result) :
    result.breakdown = sums.breakdown ++ listedScores scores names := by
  induction names generalizing sums with
  | nil =>
    cases ended
    exact (List.append_nil _).symm
  | cons name names ih =>
    obtain ⟨same, ended⟩ | ⟨score, next, more, added, ended⟩ := sumUp_cons ended
    · rw [same]
      exact ih ended
    · obtain ⟨_, _, _, _, _, _, _, listed⟩ := Sums.add_cases added
      rw [more, ih ended, listed, List.append_assoc]
      rfl

end Steps

/-- What is summed up of each score, in one total and in shares that categories have of it. -/
structure Column where
  given : Score → Value
  total : Sums → Value
  share : Category → Value
  start : (total {}).Counts 0
  nothing : (share {}).Counts 0
  adds {sums result : Sums} {score : Score} {key? : Except Fault Scalar} : sums.add score key? = .ok result →
    ∃ key category, (total sums).add (given score) "+=" = .ok (total result) ∧
      (share ((Keyed.find? sums.categories key).getD {})).add (given score) "+=" = .ok (share category) ∧
      result.categories = Keyed.insert sums.categories key category

namespace Column

theorem counts_zero : (Value.float .zero).Counts 0 := by
  refine ⟨.float .zero, rfl, congrArg some ?_⟩
  simp [Number.Binary64.signed, Number.Magnitude.nothing]

/-- The points that are earned. -/
def earned : Column where
  given := Score.earned
  total := Sums.total
  share := Category.score
  start := counts_zero
  nothing := Value.counts_int 0
  adds ended := by
    obtain ⟨key, category, totals, _, shares, _, grown, _⟩ := Sums.add_cases ended
    exact ⟨key, category, totals, shares, grown⟩

/-- The points that can be earned. -/
def points : Column where
  given := Score.points
  total := Sums.most
  share := Category.most
  start := counts_zero
  nothing := Value.counts_int 0
  adds ended := by
    obtain ⟨key, category, _, mosts, _, limits, grown, _⟩ := Sums.add_cases ended
    exact ⟨key, category, mosts, limits, grown⟩

/-- The total is a whole number, and the shares of the categories add up to it. -/
structure Tallies (column : Column) (sums : Sums) (sum : Int) (size : Nat) : Prop where
  total : (column.total sums).Counts sum
  shares : AddUp (sums.categories.map fun entry => column.share entry.2) sum size

variable {column : Column} {sums result : Sums}

/-- One more score adds to the total as much as to the share of one category. -/
theorem Tallies.add {score : Score} {key? : Except Fault Scalar} (tallies : column.Tallies sums sum size)
    (counts : (column.given score).Counts count) (few : size + count.natAbs ≤ 2 ^ 53)
    (ended : sums.add score key? = .ok result) : column.Tallies result (sum + count) (size + count.natAbs) := by
  obtain ⟨key, category, added, shared, grown⟩ := column.adds ended
  have bound := tallies.shares.natAbs_le
  refine ⟨tallies.total.add counts (by omega) (by omega) (by omega) added, grown ▸ ?_⟩
  refine tallies.shares.insert column.nothing fun held small old => ?_
  exact old.add counts (by omega) (by omega) (by omega) shared

theorem Tallies.sumUp {scores : Keyed Score} {mapping : Value} {names : List Value} (tallies : column.Tallies sums sum size)
    (adds : AddUp ((listedScores scores names).map column.given) more extra) (few : size + extra ≤ 2 ^ 53)
    (ended : sumUp scores mapping sums names = .ok result) : column.Tallies result (sum + more) (size + extra) := by
  induction names generalizing sums sum size more extra with
  | nil =>
    cases ended
    rw [addUp_nil.mp adds, Int.add_zero]
    exact ⟨tallies.total, tallies.shares.mono (Nat.le_add_right _ _)⟩
  | cons name names ih =>
    obtain ⟨same, ended⟩ | ⟨score, next, listed, added, ended⟩ := sumUp_cons ended
    · rw [same] at adds
      exact ih tallies adds few ended
    · rw [listed, List.map_cons] at adds
      obtain ⟨first, rest, others, counts, later, rfl, room⟩ := addUp_cons.mp adds
      have summed := ih (tallies.add counts (by omega) added) later (by omega) ended
      rw [Int.add_assoc] at summed
      exact ⟨summed.total, summed.shares.mono (by omega)⟩

end Column

theorem Category.rounded_cases {category result : Category} (ended : category.rounded = .ok result) :
    roundHalfUp category.score 2 = .ok result.score ∧ result.most = category.most := by
  have rest {percentage : Value} (ended : (do return ⟨← roundHalfUp category.score 2, category.most, percentage⟩) =
      Except.ok result) : roundHalfUp category.score 2 = .ok result.score ∧ result.most = category.most := by
    obtain ⟨score, rounds, ended⟩ := Fault.of_bind_ok ended
    cases ended
    exact ⟨rounds, rfl⟩
  obtain ⟨positive, _, ended⟩ := Fault.of_bind_ok ended
  cases positive with
  | false =>
    obtain ⟨_, _, ended⟩ := Fault.of_bind_ok ended
    exact rest ended
  | true =>
    obtain ⟨_, _, ended⟩ := Fault.of_bind_ok ended
    obtain ⟨_, _, ended⟩ := Fault.of_bind_ok ended
    obtain ⟨_, _, ended⟩ := Fault.of_bind_ok ended
    exact rest ended

/-- Rounding the categories leaves whole shares alone. -/
theorem roundCategories_scores {categories rounded : Keyed Category}
    (adds : AddUp (categories.map (·.2.score)) sum size) (few : 25 * size ≤ 2 ^ 53)
    (ended : roundCategories categories = .ok rounded) : AddUp (rounded.map (·.2.score)) sum size := by
  induction categories generalizing sum size rounded with
  | nil =>
    cases ended
    exact adds
  | cons entry categories ih =>
    obtain ⟨first, whole, ended⟩ := Fault.of_bind_ok ended
    obtain ⟨others, wholes, ended⟩ := Fault.of_bind_ok ended
    cases ended
    obtain ⟨share, rest, more, counts, shares, rfl, room⟩ := addUp_cons.mp adds
    have kept := counts_of_roundHalfUp counts (by omega) (Category.rounded_cases whole).1
    exact addUp_cons.mpr ⟨share, rest, more, kept, ih shares (by omega) wholes, rfl, room⟩

theorem roundCategories_mosts {categories rounded : Keyed Category} (ended : roundCategories categories = .ok rounded) :
    rounded.map (·.2.most) = categories.map (·.2.most) := by
  induction categories generalizing rounded with
  | nil =>
    cases ended
    rfl
  | cons entry categories ih =>
    obtain ⟨first, whole, ended⟩ := Fault.of_bind_ok ended
    obtain ⟨others, wholes, ended⟩ := Fault.of_bind_ok ended
    cases ended
    exact congrArg₂ List.cons (Category.rounded_cases whole).2 (ih wholes)

/-- A tier whose condition holds of what has been summed, or does not. -/
def Meets (source : Source) (holds : Bool) (tier : Value) : Prop :=
  ∃ fields, tier = .object fields ∧ Condition.evaluate source (.ofValue (Fields.get fields "condition")) = .ok holds

/-- The evaluation and the message are those of the first tier whose condition holds, and there are none if no tier's
condition does. -/
inductive Judged (source : Source) (tiers : List Value) : Value → Value → Prop
  | first {before after : List Value} {fields : Fields} (shape : tiers = before ++ .object fields :: after)
    (fail : ∀ tier ∈ before, Meets source false tier) (holds : Meets source true (.object fields)) :
    Judged source tiers (Fields.get fields "result") (Fields.get fields "message")
  | none (fail : ∀ tier ∈ tiers, Meets source false tier) : Judged source tiers .null .null

theorem firstTier_judged {source : Source} {tiers : List Value} {evaluation message : Value}
    (ended : firstTier source tiers = .ok (evaluation, message)) : Judged source tiers evaluation message := by
  induction tiers with
  | nil =>
    cases ended
    exact .none nofun
  | cons tier tiers ih =>
    obtain ⟨fields, shape, ended⟩ := Fault.of_bind_ok ended
    obtain ⟨holds, tested, ended⟩ := Fault.of_bind_ok ended
    obtain rfl := Value.eq_of_asObject shape
    cases holds with
    | true =>
      cases ended
      exact .first (show _ = [] ++ _ :: tiers from rfl) nofun ⟨fields, rfl, tested⟩
    | false =>
      have fails : Meets source false (.object fields) := ⟨fields, rfl, tested⟩
      cases ih ended with
      | first shape fail holds =>
        subst shape
        exact .first (List.cons_append ..).symm (List.forall_mem_cons.mpr ⟨fails, fail⟩) holds
      | none fail => exact .none (List.forall_mem_cons.mpr ⟨fails, fail⟩)

/-- The totals in which the tiers of a rule look for percentage and points, which are not yet rounded. -/
def summedSource (percentage total most : Value) : Source :=
  .flat [(.text "percentage", percentage), (.text "totalPoints", total), (.text "maxPoints", most)]

theorem ofScores_cases {scores : Keyed Score} {rule : Fields} {names : List Value} {rollup : Rollup}
    (listed : Fields.get rule "inputFields" = .list names) (some : names ≠ [])
    (ended : Rollup.ofScores scores rule = .ok rollup) :
    ∃ sums percentage tiers, sumUp scores ((Fields.get rule "categoryMapping").orElse (.object [])) {} names = .ok sums ∧
      percentageOf sums.total sums.most = .ok percentage ∧
      ((Fields.get rule "evaluationRules").orElse (.list [])).items = .ok tiers ∧
      Judged (summedSource percentage sums.total sums.most) tiers rollup.evaluation rollup.message ∧
      roundHalfUp sums.total 2 = .ok rollup.total ∧ rollup.most = sums.most ∧
      roundCategories sums.categories = .ok rollup.categories ∧ rollup.breakdown = listedScores scores names := by
  have filled : (Value.list names).truthy = true := by
    cases names with
    | nil => exact absurd rfl some
    | cons => rfl
  have inputs : (Fields.get rule "inputFields").orElse (.list []) = .list names := by
    rw [listed, Value.orElse, if_pos filled]
  unfold Rollup.ofScores at ended
  simp only [inputs, filled, Bool.not_true, Bool.false_eq_true, if_false] at ended
  obtain ⟨_, same, ended⟩ := Fault.of_bind_ok ended
  cases same
  obtain ⟨sums, summed, ended⟩ := Fault.of_bind_ok ended
  obtain ⟨percentage, shared, ended⟩ := Fault.of_bind_ok ended
  obtain ⟨categories, rounded, ended⟩ := Fault.of_bind_ok ended
  obtain ⟨tiers, rules, ended⟩ := Fault.of_bind_ok ended
  obtain ⟨⟨evaluation, message⟩, judged, ended⟩ := Fault.of_bind_ok ended
  obtain ⟨total, rounds, ended⟩ := Fault.of_bind_ok ended
  obtain ⟨share, _, ended⟩ := Fault.of_bind_ok ended
  cases ended
  exact ⟨sums, percentage, tiers, summed, shared, rules, firstTier_judged judged, rounds, rfl, rounded,
    sumUp_breakdown summed⟩

/-- Adding up loses no points. What is listed is the scores of the names that have one. Where the points that can be
earned are whole numbers, and numbers hold all of them together, the total is their exact sum, and so is what the
categories have together; and the points that are earned also if numbers hold their hundredfold, since they are rounded.
The tiers are looked through with totals that are not. -/
theorem ofScores_conserves {scores : Keyed Score} {rule : Fields} {names : List Value} {rollup : Rollup}
    (listed : Fields.get rule "inputFields" = .list names) (some : names ≠ [])
    (ended : Rollup.ofScores scores rule = .ok rollup) :
    rollup.breakdown = listedScores scores names ∧ ∃ total percentage tiers,
      (∀ points size, AddUp (rollup.breakdown.map (·.points)) points size → size ≤ 2 ^ 53 →
        rollup.most.Counts points ∧ AddUp (rollup.categories.map (·.2.most)) points size) ∧
      (∀ earned size, AddUp (rollup.breakdown.map (·.earned)) earned size → 25 * size ≤ 2 ^ 53 →
        total.Counts earned ∧ rollup.total.Counts earned ∧ AddUp (rollup.categories.map (·.2.score)) earned size) ∧
      roundHalfUp total 2 = .ok rollup.total ∧ percentageOf total rollup.most = .ok percentage ∧
      ((Fields.get rule "evaluationRules").orElse (.list [])).items = .ok tiers ∧
      Judged (summedSource percentage total rollup.most) tiers rollup.evaluation rollup.message := by
  obtain ⟨sums, percentage, tiers, summed, shared, rules, judged, rounds, most, rounded, all⟩ :=
    ofScores_cases listed some ended
  have tally {column : Column} {sum : Int} {size : Nat} (adds : AddUp (rollup.breakdown.map column.given) sum size)
      (few : size ≤ 2 ^ 53) : column.Tallies sums sum size := by
    have start : column.Tallies {} 0 0 := ⟨column.start, addUp_nil.mpr rfl⟩
    have reached := start.sumUp (all ▸ adds) (by omega) summed
    rwa [Int.zero_add, Nat.zero_add] at reached
  rw [most]
  refine ⟨all, sums.total, percentage, tiers, fun points size adds few => ?_, fun earned size adds few => ?_,
    rounds, shared, rules, judged⟩
  · obtain ⟨mosts, limits⟩ := @tally .points _ _ adds few
    exact ⟨mosts, roundCategories_mosts rounded ▸ limits⟩
  · obtain ⟨totals, shares⟩ := @tally .earned _ _ adds (by omega)
    have bound := adds.natAbs_le
    exact ⟨totals, counts_of_roundHalfUp totals (by omega) rounds, roundCategories_scores shares few rounded⟩

namespace Survey

def score (points earned : Int) : Score where
  correct := decide (points = earned)
  points := .int points
  penalty := .int 0
  earned := .int earned
  message := .null
  answer := .null
  expected := .null

def scores : Keyed Score := [(.text "a", score 5 3), (.text "b", score 2 (-1)), (.text "c", score 4 4)]

def tier (least : Int) (result : String) : Value := .ofFields [
  ("condition", .ofFields [("field", .text "percentage"), ("operator", .text ">="), ("value", .int least)]),
  ("result", .text result)]

def names : List Value := [.text "a", .text "x", .text "b", .text "a"]

def rule : Fields := [
  (.text "inputFields", .list names),
  (.text "categoryMapping", .ofFields [("a", .text "Algebra")]),
  (.text "evaluationRules", .list [tier 90 "good", tier 40 "fair", tier 0 "poor"])]

end Survey

open Survey in
theorem ofScores_conserves_survey : ∃ rollup, Rollup.ofScores scores rule = .ok rollup ∧
    rollup.evaluation.same (.text "fair") = true ∧ rollup.breakdown = [score 5 3, score 2 (-1), score 5 3] ∧
    rollup.total.Counts 5 ∧ AddUp (rollup.categories.map (·.2.score)) 5 7 ∧
    rollup.most.Counts 12 ∧ AddUp (rollup.categories.map (·.2.most)) 12 12 := by
  obtain ⟨rollup, ended, fair⟩ : ∃ rollup, Rollup.ofScores scores rule = .ok rollup ∧
      rollup.evaluation.same (.text "fair") = true := by
    have known : ((Rollup.ofScores scores rule).toOption.map fun rollup => rollup.evaluation.same (.text "fair")) =
      some true := by decide +kernel
    obtain ⟨rollup, ended, fair⟩ := Option.map_eq_some_iff.mp known
    exact ⟨rollup, ok_of_toOption ended, fair⟩
  obtain ⟨all, _, _, _, points, earned, _⟩ :=
    ofScores_conserves (show Fields.get rule _ = .list names from rfl) (List.cons_ne_nil _ _) ended
  have listed : rollup.breakdown = [score 5 3, score 2 (-1), score 5 3] := all
  rw [listed] at points earned
  have worth : AddUp [.int 5, .int 2, .int 5] 12 12 :=
    ⟨[5, 2, 5], .cons (Value.counts_int 5) (.cons (Value.counts_int 2) (.cons (Value.counts_int 5) .nil)), rfl, le_rfl⟩
  have gains : AddUp [.int 3, .int (-1), .int 3] 5 7 :=
    ⟨[3, -1, 3], .cons (Value.counts_int 3) (.cons (Value.counts_int (-1)) (.cons (Value.counts_int 3) .nil)), rfl, le_rfl⟩
  obtain ⟨most, limits⟩ := points 12 12 worth (by decide)
  obtain ⟨_, total, shares⟩ := earned 5 7 gains (by decide)
  exact ⟨rollup, ended, fair, listed, total, shares, most, limits⟩

namespace Survey

def large : Keyed Score := [(.text "q", score 1 1099511627773)]

def repeated : List Value := .replicate 329 (.text "q")

def repeating : Fields := [(.text "inputFields", .list repeated)]

end Survey

open Survey in
/-- What is listed again and again passes what numbers hold in hundredths, however small the scores are. -/
theorem ofScores_not_exact :
    AddUp (large.map (·.2.points)) 1 1 ∧ AddUp (large.map (·.2.earned)) 1099511627773 1099511627773 ∧
      1 + 1099511627773 < 2 ^ 40 ∧
      ∃ rollup, Rollup.ofScores large repeating = .ok rollup ∧
        AddUp (rollup.breakdown.map (·.earned)) 361739325537317 361739325537317 ∧
        ¬rollup.total.Counts 361739325537317 := by
  obtain ⟨rollup, ended, below⟩ : ∃ rollup, Rollup.ofScores large repeating = .ok rollup ∧
      rollup.total.compare .less (.int 361739325537317) = .ok true := by
    have known : ((Rollup.ofScores large repeating).toOption.map fun rollup =>
      (rollup.total.compare .less (.int 361739325537317)).toOption) = some (some true) := by decide +kernel
    obtain ⟨rollup, ended, below⟩ := Option.map_eq_some_iff.mp known
    exact ⟨rollup, ok_of_toOption ended, ok_of_toOption below⟩
  obtain ⟨_, _, _, _, _, _, _, _, _, _, all⟩ :=
    ofScores_cases (show Fields.get repeating _ = .list repeated from rfl) (List.cons_ne_nil _ _) ended
  have listed : listedScores large repeated = .replicate 329 (score 1 1099511627773) :=
    List.filterMap_replicate_of_some rfl
  refine ⟨addUp_replicate (Value.counts_int 1) 1, addUp_replicate (Value.counts_int _) 1, by decide, rollup, ended, ?_, ?_⟩
  · rw [all, listed, List.map_replicate]
    exact addUp_replicate (Value.counts_int _) 329
  · rintro ⟨n, counts, stands⟩
    have below : n.less (.int 361739325537317) = true := by
      obtain ⟨m, counts', less⟩ := Value.number?_of_compare below
      cases counts.symm.trans counts'
      exact less
    rw [Number.less_eq_decide stands rfl, decide_eq_true_eq] at below
    exact absurd below (lt_irrefl _)

end Scoring

end FormRules

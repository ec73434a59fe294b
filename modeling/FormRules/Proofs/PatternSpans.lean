import FormRules.Pattern.Search

/-! What plain patterns take. Searching goes through the ways to match in an order, and goes back where a later part
fails; in the end a part has been tried with every stretch of text that it can take, so that only these stretches count. -/

namespace FormRules.Pattern

/-- The place after some characters have been taken. -/
def Place.moved (place : Place) (taken rest : List Char) : Place := ⟨taken.reverse ++ place.before, rest, place.groups⟩

theorem Place.moved_moved (place : Place) (taken more middle rest : List Char) :
    (place.moved taken middle).moved more rest = place.moved (taken ++ more) rest := by
  simp [moved]

/-- Which characters a part can take, seen from what stands before them, nearest first, and from what follows. -/
abbrev Span := (before taken rest : List Char) → Prop

/-- Whether a part leads to a match just if it can do so with some characters that it can take. -/
def Takes (way : Way) (span : Span) : Prop :=
  ∀ place next, (way place next).isSome = true ↔ ∃ taken rest, place.rest = taken ++ rest ∧
    span place.before taken rest ∧ (next (place.moved taken rest)).isSome = true

namespace Span

def anchor (mark : Anchor) : Span := fun before taken rest => taken = [] ∧ mark.holds ⟨before, rest, []⟩ = true

def chars (set : CharClass) (least : Nat) : Span := fun _ taken _ =>
  least ≤ taken.length ∧ ∀ c ∈ taken, set.holds c = true

def followed (first second : Span) : Span := fun before taken rest =>
  ∃ start stop, taken = start ++ stop ∧ first before start (stop ++ rest) ∧ second (start.reverse ++ before) stop rest

end Span

variable {set : CharClass}

theorem Anchor.holds_groups (mark : Anchor) (place : Place) : mark.holds ⟨place.before, place.rest, []⟩ = mark.holds place := by
  cases mark <;> rfl

theorem takes_anchor (mark : Anchor) : Takes (run (.anchor mark)) (.anchor mark) := by
  intro place next
  rw [run]
  constructor
  · intro found
    split at found
    next holds => exact ⟨[], place.rest, rfl, ⟨rfl, (mark.holds_groups place).trans holds⟩, found⟩
    next => cases found
  · rintro ⟨taken, rest, whole, ⟨rfl, holds⟩, found⟩
    obtain rfl : place.rest = rest := whole
    rw [if_pos ((mark.holds_groups place).symm.trans holds)]
    exact found

theorem run_one_isSome (set : CharClass) (place : Place) (next : Place → Option Place) :
    (run (.one set) place next).isSome = true ↔
      ∃ c rest, place.rest = c :: rest ∧ set.holds c = true ∧ (next (place.moved [c] rest)).isSome = true := by
  obtain ⟨before, chars, groups⟩ := place
  rw [run]
  cases chars with
  | nil => simp
  | cons c rest =>
    constructor
    · intro found
      dsimp only at found
      split at found
      next holds => exact ⟨c, rest, rfl, holds, found⟩
      next => cases found
    · rintro ⟨_, _, ⟨⟩, holds, found⟩
      dsimp only
      rw [if_pos holds]
      exact found

theorem takes_followed {first second : Pattern} {span span' : Span} (takes : Takes (run first) span)
    (takes' : Takes (run second) span') : Takes (run (.followed first second)) (.followed span span') := by
  intro place next
  rw [run, takes]
  constructor
  · rintro ⟨start, middle, whole, held, found⟩
    obtain ⟨stop, rest, whole', held', found⟩ := (takes' _ _).mp found
    obtain rfl : middle = stop ++ rest := whole'
    refine ⟨start ++ stop, rest, by rw [whole, List.append_assoc], ⟨start, stop, rfl, held, held'⟩, ?_⟩
    rw [Place.moved_moved] at found
    exact found
  · rintro ⟨_, rest, whole, ⟨start, stop, rfl, held, held'⟩, found⟩
    refine ⟨start, stop ++ rest, by rw [whole, List.append_assoc], held, (takes' _ _).mpr ⟨stop, rest, rfl, held', ?_⟩⟩
    rw [Place.moved_moved]
    exact found

theorem isSome_orElse_iff {α : Type} (first second : Option α) :
    (first.orElse fun _ => second).isSome = true ↔ first.isSome = true ∨ second.isSome = true := by
  cases first <;> simp

/-- Whether some characters of a class can be taken, an allowed count of them, so that what follows succeeds. -/
def Advances (set : CharClass) (allowed : Nat → Prop) (place : Place) (next : Place → Option Place) : Prop :=
  ∃ taken rest, place.rest = taken ++ rest ∧ (∀ c ∈ taken, set.holds c = true) ∧ allowed taken.length ∧
    (next (place.moved taken rest)).isSome = true

theorem advances_zero (set : CharClass) (place : Place) (next : Place → Option Place) :
    Advances set (· = 0) place next ↔ (next place).isSome = true := by
  constructor
  · intro ⟨taken, rest, whole, _, exhausted, found⟩
    obtain rfl := List.eq_nil_of_length_eq_zero exhausted
    obtain rfl : place.rest = rest := whole
    exact found
  · intro found
    exact ⟨[], place.rest, rfl, nofun, rfl, found⟩

/-- One character and then as many more as are allowed. -/
theorem run_one_then {allowed : Nat → Prop} {next later : Place → Option Place}
    (advances : ∀ place, (later place).isSome = true ↔ Advances set allowed place next) (place : Place) :
    (run (.one set) place later).isSome = true ↔ Advances set (fun count => ∃ more, count = more + 1 ∧ allowed more) place next := by
  rw [run_one_isSome]
  constructor
  · intro ⟨c, _, whole, holds, found⟩
    obtain ⟨taken, rest, rfl, kept, fits, found⟩ := (advances _).mp found
    rw [Place.moved_moved] at found
    exact ⟨c :: taken, rest, whole, List.forall_mem_cons.mpr ⟨holds, kept⟩, ⟨_, rfl, fits⟩, found⟩
  · intro ⟨taken, rest, whole, kept, ⟨more, count, fits⟩, found⟩
    cases taken with
    | nil => cases count
    | cons c taken =>
      obtain ⟨holds, kept⟩ := List.forall_mem_cons.mp kept
      obtain rfl := Nat.succ.inj count
      refine ⟨c, taken ++ rest, whole, holds, (advances _).mpr ⟨taken, rest, rfl, kept, fits, ?_⟩⟩
      rw [Place.moved_moved]
      exact found

theorem required_isSome (count : Nat) (place : Place) (next : Place → Option Place) :
    (required (run (.one set)) count place next).isSome = true ↔ Advances set (· = count) place next := by
  induction count generalizing place with
  | zero => exact (advances_zero set place next).symm
  | succ count ih =>
    rw [required, run_one_then ih]
    simp only [exists_eq_right]

/-- A class takes a character whenever it matches, so that a repetition of it is never cut short. -/
theorem run_one_guarded (place : Place) (next later : Place → Option Place) :
    (run (.one set) place fun after => if after.rest.length = place.rest.length then next after else later after) =
      run (.one set) place later := by
  obtain ⟨before, chars, groups⟩ := place
  rw [run, run]
  cases chars with
  | nil => rfl
  | cons c rest =>
    have shorter : rest.length ≠ (c :: rest).length := Nat.ne_of_lt (Nat.lt_succ_self _)
    simp only [if_neg shorter]

theorem optional_isSome (greedy : Bool) (bound : Nat) (place : Place) (next : Place → Option Place) :
    (optional (run (.one set)) greedy bound place next).isSome = true ↔ Advances set (· ≤ bound) place next := by
  induction bound generalizing place with
  | zero =>
    simp only [Nat.le_zero]
    exact (advances_zero set place next).symm
  | succ bound ih =>
    -- The order in which more and no more are tried makes no difference to whether one of them succeeds.
    have either : (optional (run (.one set)) greedy (bound + 1) place next).isSome = true ↔
        (run (.one set) place fun after => optional (run (.one set)) greedy bound after next).isSome = true ∨
          (next place).isSome = true := by
      rw [optional, run_one_guarded]
      cases greedy with
      | true => exact isSome_orElse_iff ..
      | false => exact (isSome_orElse_iff ..).trans or_comm
    rw [either, run_one_then ih, ← advances_zero set]
    constructor
    · rintro (⟨taken, rest, whole, kept, ⟨more, count, fits⟩, found⟩ | ⟨taken, rest, whole, kept, count, found⟩)
      · exact ⟨taken, rest, whole, kept, by omega, found⟩
      · exact ⟨taken, rest, whole, kept, by omega, found⟩
    · intro ⟨taken, rest, whole, kept, fits, found⟩
      cases count : taken.length with
      | zero => exact .inr ⟨taken, rest, whole, kept, count, found⟩
      | succ more => exact .inl ⟨taken, rest, whole, kept, ⟨more, count, by omega⟩, found⟩

/-- A repeated class takes as many of its characters as are asked for at least, and any number of them more. -/
theorem takes_repeated (set : CharClass) (least : Nat) :
    Takes (run (.repeated .greedy least none (.one set))) (.chars set least) := by
  intro place next
  have counts : run (.repeated .greedy least none (.one set)) place next =
      required (run (.one set)) least place fun place =>
        optional (run (.one set)) true (place.rest.length + 1) place next := rfl
  rw [counts, required_isSome]
  constructor
  · intro ⟨taken, _, whole, kept, count, found⟩
    obtain ⟨more, rest, rfl, kept', _, found⟩ := (optional_isSome ..).mp found
    rw [Place.moved_moved] at found
    refine ⟨taken ++ more, rest, by rw [whole, List.append_assoc], ⟨?_, ?_⟩, found⟩
    · rw [List.length_append, count]
      exact Nat.le_add_right ..
    · intro c member
      exact (List.mem_append.mp member).elim (kept c) (kept' c)
  · intro ⟨taken, rest, whole, ⟨enough, kept⟩, found⟩
    refine ⟨taken.take least, taken.drop least ++ rest, ?_, ?_, List.length_take_of_le enough, ?_⟩
    · rw [whole, ← List.append_assoc, List.take_append_drop]
    · exact fun c member => kept c (List.mem_of_mem_take member)
    · apply (optional_isSome ..).mpr
      refine ⟨taken.drop least, rest, rfl, fun c member => kept c (List.mem_of_mem_drop member), ?_, ?_⟩
      · show (taken.drop least).length ≤ (taken.drop least ++ rest).length + 1
        rw [List.length_append]
        omega
      · rw [Place.moved_moved, List.take_append_drop]
        exact found

theorem takes_one (set : CharClass) : Takes (run (.one set)) fun _ taken _ => ∃ c, taken = [c] ∧ set.holds c = true := by
  intro place next
  rw [run_one_isSome]
  constructor
  · rintro ⟨c, rest, whole, holds, found⟩
    exact ⟨[c], rest, whole, ⟨c, rfl, holds⟩, found⟩
  · rintro ⟨_, rest, whole, ⟨c, rfl, holds⟩, found⟩
    exact ⟨c, rest, whole, holds, found⟩

theorem foundFrom_iff {pattern : Pattern} {span : Span} (takes : Takes (run pattern) span) (before chars : List Char) :
    pattern.foundFrom before chars = true ↔
      ∃ skipped taken rest, chars = skipped ++ (taken ++ rest) ∧ span (skipped.reverse ++ before) taken rest := by
  have here : ∀ before chars, (pattern.run ⟨before, chars, []⟩ some).isSome = true ↔
      ∃ taken rest, chars = taken ++ rest ∧ span before taken rest := by
    intro before chars
    rw [takes]
    simp
  induction chars generalizing before with
  | nil =>
    rw [foundFrom, here]
    constructor
    · rintro ⟨taken, rest, whole, held⟩
      exact ⟨[], taken, rest, whole, held⟩
    · rintro ⟨skipped, taken, rest, whole, held⟩
      obtain ⟨rfl, nothing⟩ := List.append_eq_nil_iff.mp whole.symm
      exact ⟨taken, rest, nothing.symm, held⟩
  | cons c chars ih =>
    rw [foundFrom, Bool.or_eq_true]
    refine (or_congr (here before (c :: chars)) (ih (c :: before))).trans ?_
    constructor
    · rintro (⟨taken, rest, whole, held⟩ | ⟨skipped, taken, rest, rfl, held⟩)
      · exact ⟨[], taken, rest, whole, held⟩
      · exact ⟨c :: skipped, taken, rest, rfl, by simpa using held⟩
    · rintro ⟨_ | ⟨d, skipped⟩, taken, rest, whole, held⟩
      · exact .inl ⟨taken, rest, whole, held⟩
      · obtain ⟨rfl, rfl⟩ := List.cons.inj whole
        exact .inr ⟨skipped, taken, rest, rfl, by simpa using held⟩

/-- A pattern that begins where the text does is only found there. -/
theorem found_iff {pattern : Pattern} {span : Span} (takes : Takes (run pattern) span) (text : String) :
    (Pattern.followed (.anchor .textStart) pattern).found text = true ↔
      ∃ taken rest, text.toList = taken ++ rest ∧ span [] taken rest := by
  rw [found, foundFrom_iff (takes_followed (takes_anchor .textStart) takes)]
  constructor
  · rintro ⟨skipped, _, rest, whole, start, taken, rfl, ⟨rfl, first⟩, held⟩
    obtain rfl : skipped = [] := by simpa [Anchor.holds] using first
    exact ⟨taken, rest, whole, held⟩
  · rintro ⟨taken, rest, whole, held⟩
    exact ⟨[], taken, rest, whole, [], taken, rfl, ⟨rfl, rfl⟩, held⟩

end FormRules.Pattern

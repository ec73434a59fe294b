import FormRules.Moment.Reader
import Mathlib.Algebra.Group.Nat.Defs
import Mathlib.Data.Int.Init

/-! The order of the days and of the moments of a calendar. A day has the larger number just if its year, its month and
its day come later, compared one after the other; with the clock below them, so it is with what moments show. A moment
that is read from a text always shows a time that a clock can show. -/

namespace FormRules

namespace Calendar

def daysInYear (year : Nat) : Nat := if isLeap year then 366 else 365

theorem daysBeforeMonth_succ (year : Nat) {month : Nat} (positive : 1 ≤ month) :
    daysBeforeMonth year (month + 1) = daysBeforeMonth year month + daysInMonth year month := by
  obtain ⟨before, rfl⟩ := Nat.exists_eq_add_of_le' positive
  rfl

theorem daysBeforeMonth_le (year : Nat) {month later : Nat} (positive : 1 ≤ month) (after : month < later) :
    daysBeforeMonth year month + daysInMonth year month ≤ daysBeforeMonth year later := by
  induction later with
  | zero => omega
  | succ later ih =>
    rw [daysBeforeMonth_succ year (by omega)]
    rcases Nat.lt_or_eq_of_le (Nat.le_of_lt_succ after) with before | rfl
    · have := ih before
      omega
    · omega

theorem daysBeforeMonth_end (year : Nat) : daysBeforeMonth year 13 = daysInYear year := by
  simp only [daysBeforeMonth, daysInMonth, daysInYear]
  split <;> rfl

theorem daysBeforeYear_succ (year : Nat) : daysBeforeYear (year + 1 : Nat) = daysBeforeYear year + daysInYear year := by
  have leap : isLeap year = true ↔ year % 4 = 0 ∧ (year % 100 ≠ 0 ∨ year % 400 = 0) := by
    simp [isLeap]
  simp only [daysBeforeYear, daysInYear, Int.fdiv_eq_ediv_of_nonneg _ (by decide : (0 : Int) ≤ 4),
    Int.fdiv_eq_ediv_of_nonneg _ (by decide : (0 : Int) ≤ 100), Int.fdiv_eq_ediv_of_nonneg _ (by decide : (0 : Int) ≤ 400)]
  by_cases long : isLeap year = true
  · rw [if_pos long]
    have := leap.mp long
    omega
  · rw [if_neg long]
    have := mt leap.mpr long
    omega

theorem daysBeforeYear_le {year later : Nat} (after : year < later) :
    daysBeforeYear year + daysInYear year ≤ daysBeforeYear later := by
  induction later with
  | zero => omega
  | succ later ih =>
    rw [daysBeforeYear_succ]
    rcases Nat.lt_or_eq_of_le (Nat.le_of_lt_succ after) with before | rfl
    · have := ih before
      omega
    · omega

end Calendar

namespace Date

open Calendar

/-- Whether a date comes before another one by its year, then by its month, then by its day. -/
def Before (first second : Date) : Prop :=
  first.year < second.year ∨ first.year = second.year ∧
    (first.month < second.month ∨ first.month = second.month ∧ first.day < second.day)

theorem eq_iff {first second : Date} :
    first = second ↔ first.year = second.year ∧ first.month = second.month ∧ first.day = second.day := by
  constructor
  · rintro rfl
    exact ⟨rfl, rfl, rfl⟩
  · cases first
    cases second
    rintro ⟨⟨⟩, ⟨⟩, ⟨⟩⟩
    rfl

theorem before_total (first second : Date) : first.Before second ∨ first = second ∨ second.Before first := by
  rw [eq_iff]
  unfold Before
  omega

theorem day_le (date : Date) : daysBeforeMonth date.year date.month + date.day ≤ daysInYear date.year := by
  have within := date.day_valid.2
  have month := daysBeforeMonth_le date.year date.month_valid.1 (Nat.lt_succ_of_le date.month_valid.2)
  rw [daysBeforeMonth_end] at month
  omega

theorem ordinal_lt_of_before {first second : Date} (before : first.Before second) : first.ordinal < second.ordinal := by
  unfold ordinal
  have positive := second.day_valid.1
  rcases before with year | ⟨year, month | ⟨month, day⟩⟩
  · have years := daysBeforeYear_le year
    have days := first.day_le
    omega
  · have months := daysBeforeMonth_le first.year first.month_valid.1 month
    have days := first.day_valid.2
    rw [← year]
    omega
  · rw [← year, ← month]
    omega

theorem ordinal_lt_iff {first second : Date} : first.ordinal < second.ordinal ↔ first.Before second := by
  constructor
  · intro less
    rcases before_total first second with before | rfl | after
    · exact before
    · omega
    · have := ordinal_lt_of_before after
      omega
  · exact ordinal_lt_of_before

theorem ordinal_eq_iff {first second : Date} : first.ordinal = second.ordinal ↔
    first.year = second.year ∧ first.month = second.month ∧ first.day = second.day := by
  rw [← eq_iff]
  constructor
  · intro same
    rcases before_total first second with before | same | after
    · have := ordinal_lt_of_before before
      omega
    · exact same
    · have := ordinal_lt_of_before after
      omega
  · rintro rfl
    rfl

end Date

/-- Whether a clock can show the time. -/
structure DayTime.IsClock (time : DayTime) : Prop where
  hour : time.hour < 24
  minute : time.minute < 60
  second : time.second < 60
  micro : time.micro < 1000000

theorem DayTime.IsClock.micros_lt {time : DayTime} (clock : time.IsClock) : time.micros < dayMicros := by
  obtain ⟨hour, minute, second, micro⟩ := clock
  simp only [DayTime.micros, dayMicros]
  omega

theorem DayTime.micros_lt_iff {first second : DayTime} (clock : first.IsClock) (clock' : second.IsClock) :
    first.micros < second.micros ↔ first.hour < second.hour ∨ first.hour = second.hour ∧
      (first.minute < second.minute ∨ first.minute = second.minute ∧
        (first.second < second.second ∨ first.second = second.second ∧ first.micro < second.micro)) := by
  obtain ⟨_, minute, second', micro⟩ := clock
  obtain ⟨_, minute', second'', micro'⟩ := clock'
  simp only [micros]
  constructor <;> intro less <;> omega

namespace Moment

/-- What a moment shows, from the year down to the microsecond. -/
def reading (moment : Moment) : List Nat := [
  moment.date.year, moment.date.month, moment.date.day,
  moment.time.hour, moment.time.minute, moment.time.second, moment.time.micro]

/-- Whether a moment shows less than another one where they first differ. -/
def ReadsBefore (first second : Moment) : Prop := List.Lex (· < ·) first.reading second.reading

theorem shown_lt_iff {first second : Moment} (clock : first.time.IsClock) (clock' : second.time.IsClock) :
    first.shown < second.shown ↔ first.ReadsBefore second := by
  have days : first.shown < second.shown ↔ first.date.ordinal < second.date.ordinal ∨
      first.date.ordinal = second.date.ordinal ∧ first.time.micros < second.time.micros := by
    have early := clock.micros_lt
    have early' := clock'.micros_lt
    simp only [shown, dayMicros] at *
    omega
  rw [days, Date.ordinal_lt_iff, Date.ordinal_eq_iff, DayTime.micros_lt_iff clock clock']
  simp only [Date.Before, ReadsBefore, reading, List.cons_lex_cons_iff, List.not_lex_nil, and_false, or_false]
  constructor
  · rintro ((year | ⟨year, month | ⟨month, day⟩⟩) | ⟨⟨year, month, day⟩, time⟩)
    · exact .inl year
    · exact .inr ⟨year, .inl month⟩
    · exact .inr ⟨year, .inr ⟨month, .inl day⟩⟩
    · exact .inr ⟨year, .inr ⟨month, .inr ⟨day, time⟩⟩⟩
  · rintro (year | ⟨year, month | ⟨month, day | ⟨day, time⟩⟩⟩)
    · exact .inl (.inl year)
    · exact .inl (.inr ⟨year, .inl month⟩)
    · exact .inl (.inr ⟨year, .inr ⟨month, day⟩⟩)
    · exact .inr ⟨⟨year, month, day⟩, time⟩

theorem shown_le_iff {first second : Moment} (clock : first.time.IsClock) (clock' : second.time.IsClock) :
    first.shown ≤ second.shown ↔ ¬second.ReadsBefore first := by
  rw [← Int.not_lt, shown_lt_iff clock' clock]

theorem plainDigit?_lt {c : Char} {digit : Nat} (read : plainDigit? c = some digit) : digit < 10 := by
  unfold plainDigit? at read
  split at read
  next decimal =>
    simp only [Char.isDigit, Bool.and_eq_true, decide_eq_true_eq] at decimal
    have most : c.toNat ≤ 57 := decimal.2
    cases read
    omega
  next => cases read

/-- Digits that follow a value give a number below the next value with as many zeros. -/
theorem digits?_lt {count value : Nat} {chars rest : List Char} {number : Nat}
    (read : digits? count value chars = some (number, rest)) : number < (value + 1) * 10 ^ count := by
  induction count generalizing value chars with
  | zero =>
    rw [digits?] at read
    cases read
    omega
  | succ count ih =>
    cases chars with
    | nil => cases read
    | cons c chars =>
      obtain ⟨digit, shown, read⟩ := Option.bind_eq_some_iff.mp read
      have small := plainDigit?_lt shown
      calc number < (10 * value + digit + 1) * 10 ^ count := ih read
        _ ≤ ((value + 1) * 10) * 10 ^ count := Nat.mul_le_mul_right _ (by omega)
        _ = (value + 1) * 10 ^ (count + 1) := by rw [Nat.pow_succ, Nat.mul_assoc, Nat.mul_comm 10]

theorem micro_of_dayTime? {chars left : List Char} {time : DayTime} (read : dayTime? chars = some (time, left)) :
    time.micro < 1000000 := by
  obtain ⟨⟨values, tail⟩, _, read⟩ := Option.bind_eq_some_iff.mp read
  cases tail with
  | other left =>
    cases read
    exact Nat.zero_lt_succ _
  | fraction chars =>
    obtain ⟨⟨value, rest⟩, shown, read⟩ := Option.bind_eq_some_iff.mp read
    cases read
    have small := digits?_lt shown
    rw [Nat.zero_add, Nat.one_mul] at small
    calc value * 10 ^ (6 - min 6 chars.length)
        < 10 ^ min 6 chars.length * 10 ^ (6 - min 6 chars.length) :=
          Nat.mul_lt_mul_of_pos_right small (Nat.pow_pos (by decide))
      _ = 1000000 := by rw [← Nat.pow_add, Nat.add_sub_cancel' (Nat.min_le_left ..)]

theorem micro_of_zonedTime? {chars : List Char} {time : DayTime} {offset? : Option Int}
    (read : zonedTime? chars = some (time, offset?)) : time.micro < 1000000 := by
  obtain ⟨⟨clock, left⟩, shown, read⟩ := Option.bind_eq_some_iff.mp read
  have small := micro_of_dayTime? shown
  dsimp only at read
  split at read
  next =>
    split at read
    next =>
      cases read
      exact small
    next => cases read
  next =>
    obtain ⟨⟨span, left⟩, _, read⟩ := Option.bind_eq_some_iff.mp read
    dsimp only at read
    split at read
    next =>
      cases read
      exact small
    next => cases read

theorem micro_of_parts? {chars : List Char} {form : DateForm} {time : DayTime} {offset? : Option Int}
    (read : parts? chars = some (form, time, offset?)) : time.micro < 1000000 := by
  unfold parts? at read
  split at read
  next => cases read
  next =>
    obtain ⟨date, _, read⟩ := Option.bind_eq_some_iff.mp read
    split at read
    next =>
      cases read
      exact Nat.zero_lt_succ _
    next =>
      obtain ⟨⟨clock, offset⟩, zoned, read⟩ := Option.bind_eq_some_iff.mp read
      cases read
      exact micro_of_zonedTime? zoned

theorem isClock_of_fits {time : DayTime} (fits : time.misfit? = none) (small : time.micro < 1000000) : time.IsClock := by
  unfold DayTime.misfit? at fits
  split at fits
  next => cases fits
  next hour =>
    split at fits
    next => cases fits
    next minute =>
      split at fits
      next => cases fits
      next second => exact ⟨Nat.lt_of_not_le hour, Nat.lt_of_not_le minute, Nat.lt_of_not_le second, small⟩

theorem isClock_of_ofText {text : String} {moment : Moment} (read : ofText text = .ok moment) : moment.time.IsClock := by
  unfold ofText ofPlain at read
  split at read
  next => cases read
  next form time offset? shown =>
    dsimp only at read
    split at read
    next => cases read
    next => cases read
    next => cases read
    next =>
      cases fits : time.misfit? with
      | some cause =>
        rw [fits] at read
        cases read
      | none =>
        rw [fits] at read
        cases read
        exact isClock_of_fits fits (micro_of_parts? shown)

end Moment

end FormRules

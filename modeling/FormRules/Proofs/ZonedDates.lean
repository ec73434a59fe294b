import FormRules.Callback.Registry
import FormRules.Proofs.Agreement
import FormRules.Proofs.CalendarOrder
import Mathlib.Data.List.Chain
import Mathlib.Data.List.Forall2

/-! What the callbacks on dates say of moments with an offset. They forget the offset and compare what the clocks show, so
they tell the order of the instants only where the offsets differ by less than the instants do. -/

namespace FormRules

namespace Moment

/-- Whether two moments have one offset, or offsets that differ by less than the instants do. -/
def OffsetsWithin (first second : Moment) : Prop :=
  first.offset? = second.offset? ∨
    (first.offset?.getD 0 - second.offset?.getD 0).natAbs < (first.instant - second.instant).natAbs

theorem OffsetsWithin.shown_le_iff {first second : Moment} (within : first.OffsetsWithin second) :
    first.shown ≤ second.shown ↔ first.instant ≤ second.instant := by
  unfold OffsetsWithin instant at *
  rcases within with same | apart
  · rw [same]
    omega
  · omega

end Moment

namespace Callback

/-- Whether a value is a text that shows a moment with an offset. -/
inductive Shows : Value → Moment → Prop
  | text {s : String} {moment : Moment} :
    Moment.ofText s = .ok moment → moment.hasOffset = true → Shows (.text s) moment

theorem shows_of_toOption {s : String} {moment : Moment} (read : (Moment.ofText s).toOption = some moment)
    (zoned : moment.hasOffset = true) : Shows (.text s) moment := by
  cases ended : Moment.ofText s with
  | error fault =>
    rw [ended] at read
    cases read
  | ok other =>
    rw [ended] at read
    cases read
    exact .text ended zoned

theorem Shows.isClock {value : Value} {moment : Moment} (shows : Shows value moment) : moment.time.IsClock := by
  obtain ⟨read, _⟩ := shows
  exact Moment.isClock_of_ofText read

theorem Shows.moment? {value : Value} {moment : Moment} (shows : Shows value moment) :
    Callback.moment? value = some moment.bare := by
  cases shows with
  | @text s _ read _ =>
    have filled : s.isEmpty = false := by
      apply Bool.eq_false_iff.mpr
      intro empty
      rw [String.isEmpty_iff.mp empty] at read
      cases read
    rw [Callback.moment?, filled, read]
    rfl

theorem chained_iff {α : Type} {ordered : α → α → Bool} {items : List α} :
    chained ordered items = true ↔ items.IsChain (ordered · · = true) := by
  induction items with
  | nil => simp [chained]
  | cons first rest ih =>
    cases rest with
    | nil => simp [chained]
    | cons second rest => rw [chained, Bool.and_eq_true, ih, List.isChain_cons_cons]

theorem chained_notLater_iff (moments : List Moment) :
    chained notLater moments = true ↔ moments.Pairwise (·.shown ≤ ·.shown) := by
  have shown : ∀ first second, notLater first second = true ↔ first.shown ≤ second.shown := by
    intro first second
    rw [notLater, decide_eq_true_eq]
  let Ordered (first second : Moment) : Prop := first.shown ≤ second.shown
  have : Trans Ordered Ordered Ordered := ⟨Int.le_trans⟩
  rw [chained_iff]
  simp only [shown]
  exact List.isChain_iff_pairwise (R := Ordered)

section Dates

variable {values : Fields} {moments : List Moment}

theorem mapM_moment? {items : List Value} (shows : List.Forall₂ Shows items moments) :
    (items.map Callback.moment?).mapM id = some (moments.map Moment.bare) := by
  induction shows with
  | nil => rfl
  | cons first _ ih =>
    rw [List.map_cons, List.mapM_cons, ih, first.moment?]
    rfl

theorem clocks_of_shows {items : List Value} (shows : List.Forall₂ Shows items moments) :
    ∀ moment ∈ moments, moment.time.IsClock := by
  induction shows with
  | nil => exact nofun
  | cons first _ ih =>
    intro moment member
    rcases List.mem_cons.mp member with rfl | later
    · exact first.isClock
    · exact ih moment later

theorem datesAscending_of_shows (shows : List.Forall₂ Shows (values.map (·.2)) moments) (several : 2 ≤ values.length)
    (context : Context) : ∃ answer, datesAscending (.object values) context = .ok (.bool answer) ∧
      (answer = true ↔ moments.Pairwise (·.shown ≤ ·.shown)) := by
  have count : moments.length = values.length := by
    rw [← shows.length_eq, List.length_map]
  obtain ⟨first, second, more, rfl⟩ : ∃ first second more, moments = first :: second :: more := by
    match moments with
    | first :: second :: more => exact ⟨first, second, more, rfl⟩
    | [] | [_] =>
      rw [← count] at several
      contradiction
  refine ⟨chained notLater ((first :: second :: more).map Moment.bare), ?_, ?_⟩
  · have listed : allValues (.object values) = .ok (values.map (·.2)) := rfl
    unfold datesAscending
    rw [listed]
    dsimp only [bind, Except.bind]
    rw [mapM_moment? shows]
    rfl
  · rw [chained_notLater_iff, List.pairwise_map]
    rfl

theorem dateInRange_of_shows {first second own : Value} {more : List Value} {start stop current : Moment}
    (listed : targets (.object values) = .ok (first :: second :: more)) (held : ownValue (.object values) = .ok own)
    (starts : Shows first start) (stops : Shows second stop) (stands : Shows own current) (context : Context) :
    ∃ answer, dateInRange (.object values) context = .ok (.bool answer) ∧
      (answer = true ↔ start.shown ≤ current.shown ∧ current.shown ≤ stop.shown) := by
  refine ⟨notLater start.bare current.bare && notLater current.bare stop.bare, ?_, ?_⟩
  · unfold dateInRange
    rw [listed, held]
    dsimp only [bind, Except.bind]
    rw [starts.moment?, stops.moment?, stands.moment?]
    rfl
  · rw [Bool.and_eq_true, notLater, notLater, decide_eq_true_eq, decide_eq_true_eq]
    rfl

end Dates

theorem pairwise_shown_iff {moments : List Moment} (clocks : ∀ moment ∈ moments, moment.time.IsClock) :
    moments.Pairwise (·.shown ≤ ·.shown) ↔ moments.Pairwise fun first second => ¬second.ReadsBefore first :=
  List.Pairwise.iff_of_mem fun {first second} member member' =>
    Moment.shown_le_iff (clocks first member) (clocks second member')

theorem pairwise_instant_iff {moments : List Moment} (within : moments.Pairwise Moment.OffsetsWithin) :
    moments.Pairwise (·.shown ≤ ·.shown) ↔ moments.Pairwise (·.instant ≤ ·.instant) := by
  constructor
  · intro ordered
    exact (within.and ordered).imp fun ⟨near, less⟩ => near.shown_le_iff.mp less
  · intro ordered
    exact (within.and ordered).imp fun ⟨near, less⟩ => near.shown_le_iff.mpr less

/-- Dates with an offset ascend just if no clock reads before an earlier one in the list, and one lies between two others
just if its clock reads so. This is the order of the instants where the offsets differ by less than the instants do. -/
theorem dates_as_shown (context : Context) :
    (∀ (values : Fields) (moments : List Moment), 2 ≤ values.length → List.Forall₂ Shows (values.map (·.2)) moments →
      ∃ callback answer, Registry.standard.find? (.text "dateRangeValid") = some callback ∧
        callback (.object values) context = .ok (.bool answer) ∧
        (answer = true ↔ moments.Pairwise fun first second => ¬second.ReadsBefore first) ∧
        (moments.Pairwise Moment.OffsetsWithin → (answer = true ↔ moments.Pairwise (·.instant ≤ ·.instant)))) ∧
    (∀ (values : Fields) (first second own : Value) (more : List Value) (start stop current : Moment),
      targets (.object values) = .ok (first :: second :: more) → ownValue (.object values) = .ok own →
      Shows first start → Shows second stop → Shows own current →
      ∃ callback answer, Registry.standard.find? (.text "validateDateInRange") = some callback ∧
        callback (.object values) context = .ok (.bool answer) ∧
        (answer = true ↔ ¬current.ReadsBefore start ∧ ¬stop.ReadsBefore current) ∧
        (start.OffsetsWithin current → current.OffsetsWithin stop →
          (answer = true ↔ start.instant ≤ current.instant ∧ current.instant ≤ stop.instant))) := by
  constructor
  · intro values moments several shows
    obtain ⟨answer, ended, ordered⟩ := datesAscending_of_shows shows several context
    refine ⟨datesAscending, answer, rfl, ended, ?_, ?_⟩
    · rw [ordered, pairwise_shown_iff (clocks_of_shows shows)]
    · intro within
      rw [ordered, pairwise_instant_iff within]
  · intro values first second own more start stop current listed held starts stops stands
    obtain ⟨answer, ended, between⟩ := dateInRange_of_shows listed held starts stops stands context
    refine ⟨dateInRange, answer, rfl, ended, ?_, ?_⟩
    · rw [between, Moment.shown_le_iff starts.isClock stands.isClock, Moment.shown_le_iff stands.isClock stops.isClock]
    · intro near near'
      rw [between, near.shown_le_iff, near'.shown_le_iff]

namespace Journey

def leapDay : Date := ⟨2024, 2, 29, by decide, by decide, by decide⟩

/-- A departure late on the day before, the night, and an arrival in the zone of another city. -/
def departure : Moment := ⟨⟨2024, 2, 28, by decide, by decide, by decide⟩, ⟨23, 45, 0, 0⟩, some 3600000000⟩

def night : Moment := ⟨leapDay, ⟨0, 0, 0, 0⟩, some 0⟩

def arrival : Moment := ⟨leapDay, ⟨5, 0, 30, 500000⟩, some 9000000000⟩

theorem departure_shown : Shows (.text "2024-02-28T23:45+01:00") departure := shows_of_toOption (by decide +kernel) rfl

theorem night_shown : Shows (.text "2024-W09-4T00Z") night := shows_of_toOption (by decide +kernel) rfl

theorem arrival_shown : Shows (.text "20240229 050030,5+0230") arrival := shows_of_toOption (by decide +kernel) rfl

theorem departure_within : departure.OffsetsWithin night := by
  unfold Moment.OffsetsWithin
  decide +kernel

theorem arrival_within : night.OffsetsWithin arrival := by
  unfold Moment.OffsetsWithin
  decide +kernel

def dates : Fields := [(.text "from", .text "2024-02-28T23:45+01:00"), (.text "to", .text "20240229 050030,5+0230")]

end Journey

open Journey in
theorem dates_as_shown_journey : ∃ ascending between,
    Registry.standard.find? (.text "dateRangeValid") = some ascending ∧
    ascending (.object dates) (Context.ofData .null) = .ok (.bool true) ∧
    Registry.standard.find? (.text "validateDateInRange") = some between ∧
    between (.object ((ownKey, .text "2024-W09-4T00Z") :: dates)) (Context.ofData .null) = .ok (.bool true) := by
  obtain ⟨ascends, lies⟩ := dates_as_shown (Context.ofData .null)
  obtain ⟨ascending, answer, found, ended, _, ordered⟩ :=
    ascends dates [departure, arrival] (by decide) (.cons departure_shown (.cons arrival_shown .nil))
  have within : [departure, arrival].Pairwise Moment.OffsetsWithin := by
    rw [List.pairwise_pair]
    unfold Moment.OffsetsWithin
    decide +kernel
  obtain rfl : answer = true := (ordered within).mpr (by decide +kernel)
  obtain ⟨between, answer, found', ended', _, ordered'⟩ :=
    lies ((ownKey, .text "2024-W09-4T00Z") :: dates) _ _ _ [] departure arrival night rfl rfl
      departure_shown arrival_shown night_shown
  obtain rfl : answer = true := (ordered' departure_within arrival_within).mpr (by decide +kernel)
  exact ⟨ascending, between, found, ended, found', ended'⟩

namespace Meeting

def day : Date := ⟨2024, 5, 15, by decide, by decide, by decide⟩

def start : Moment := ⟨day, ⟨10, 0, 0, 0⟩, some 7200000000⟩

def stop : Moment := ⟨day, ⟨9, 0, 0, 0⟩, some 0⟩

def dates : Fields := [(.text "from", .text "2024-05-15T10:00:00+02:00"), (.text "to", .text "2024-05-15T09:00:00Z")]

end Meeting

open Meeting in
/-- A meeting starts at eight by the zero meridian and stops at nine, but its clocks read ten and nine: its dates are told
not to ascend. -/
theorem ascending_refused :
    Shows (.text "2024-05-15T10:00:00+02:00") start ∧ Shows (.text "2024-05-15T09:00:00Z") stop ∧
    start.instant < stop.instant ∧
    datesAscending (.object Meeting.dates) (Context.ofData .null) = .ok (.bool false) := by
  refine ⟨shows_of_toOption (by decide +kernel) rfl, shows_of_toOption (by decide +kernel) rfl, by decide +kernel, ?_⟩
  rfl

end Callback

end FormRules

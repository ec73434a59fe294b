import FormRules.Moment.Calendar

/-!
Moments: a date with a time of day, and the offset of its zone where one is known. Moments with an
offset are ordered by the instant they name, moments without one by what the clock shows.
Main statement: of two moments of one sort, either one is earlier or they name the same instant.
-/

namespace FormRules

/-- The time of day. -/
structure DayTime where
  hour : Nat
  minute : Nat
  second : Nat := 0
  micro : Nat := 0
deriving DecidableEq, Inhabited

namespace DayTime

/-- Microseconds since midnight. -/
def micros (time : DayTime) : Nat :=
  ((time.hour * 60 + time.minute) * 60 + time.second) * 1000000 + time.micro

/-- The first number that no clock shows, if there is one. -/
def misfit? (time : DayTime) : Option Calendar.Misfit :=
  if 24 ≤ time.hour then some .hour
  else if 60 ≤ time.minute then some .minute
  else if 60 ≤ time.second then some .second
  else none

end DayTime

/-- Microseconds of one day. -/
def dayMicros : Nat := 86400000000

namespace DayTime

/-- The time of day some microseconds after midnight. -/
def ofMicros (micros : Nat) : DayTime :=
  ⟨micros / 3600000000 % 24, micros / 60000000 % 60, micros / 1000000 % 60, micros % 1000000⟩

theorem micros_ofMicros {micros : Nat} (early : micros < dayMicros) : (ofMicros micros).micros = micros := by
  simp only [ofMicros, DayTime.micros, dayMicros] at *
  omega

end DayTime

/-- A date and time, with the offset of its zone in microseconds east of the zero meridian. -/
structure Moment where
  date : Date
  time : DayTime
  offset? : Option Int
deriving DecidableEq

/-- A span of time cut into whole days, whole seconds of a day and microseconds, only the days
being negative for a span that goes back. -/
structure SpanParts where
  days : Int
  seconds : Nat
  micros : Nat

namespace SpanParts

def ofMicros (span : Int) : SpanParts :=
  let rest := (span % dayMicros).toNat
  ⟨span / dayMicros, rest / 1000000, rest % 1000000⟩

/-- The parts that are not nothing, by name. -/
def text (parts : SpanParts) : String :=
  let shown :=
    (if parts.days = 0 then [] else [s!"days={parts.days}"]) ++
    (if parts.seconds = 0 then [] else [s!"seconds={parts.seconds}"]) ++
    (if parts.micros = 0 then [] else [s!"microseconds={parts.micros}"])
  let inside := if shown.isEmpty then "0" else String.intercalate ", " shown
  s!"datetime.timedelta({inside})"

end SpanParts

/-- A number with zeros in front up to a width. -/
def padded (width value : Nat) : String :=
  let digits := toString value
  String.ofList (List.replicate (width - digits.length) '0') ++ digits

namespace Date

def text (date : Date) : String :=
  s!"{padded 4 date.year}-{padded 2 date.month}-{padded 2 date.day}"

/-- A date as it stands inside a list or an object. -/
def quotedText (date : Date) : String := s!"datetime.date({date.year}, {date.month}, {date.day})"

def midnight (date : Date) : Moment := ⟨date, ⟨0, 0, 0, 0⟩, none⟩

def less (first second : Date) : Bool := first.ordinal < second.ordinal

end Date

namespace Moment

/-- Microseconds from the start of the calendar, as the clock of the moment shows them. -/
def shown (moment : Moment) : Int := (moment.date.ordinal - 1) * dayMicros + moment.time.micros

/-- Microseconds from the start of the calendar at the zero meridian. -/
def instant (moment : Moment) : Int := moment.shown - moment.offset?.getD 0

def hasOffset (moment : Moment) : Bool := moment.offset?.isSome

/-- A moment with its offset forgotten. -/
def bare (moment : Moment) : Moment := { moment with offset? := none }

/-- A moment at the zero meridian unless it says otherwise. -/
def placed (moment : Moment) : Moment := { moment with offset? := some (moment.offset?.getD 0) }

/-- Moments of different sorts are never equal. -/
def equal (first second : Moment) : Bool :=
  first.hasOffset == second.hasOffset && first.instant == second.instant

/-- Whether a moment is earlier than another; moments of different sorts have no order. -/
def earlier? (first second : Moment) : Option Bool :=
  if first.hasOffset == second.hasOffset then some (first.instant < second.instant) else none

/-- The moment of an instant at the zero meridian, if it lies in the calendar. -/
def ofInstant? (instant : Int) : Option Moment :=
  (Date.ofOrdinal (instant / dayMicros + 1)).toOption.map fun date =>
    ⟨date, .ofMicros (instant % dayMicros).toNat, some 0⟩

def microsText (micros : Nat) : String := if micros = 0 then "" else "." ++ padded 6 micros

/-- An offset with its sign, its hours and minutes, and the finer parts it needs. -/
def offsetText (offset : Int) : String :=
  let size := offset.natAbs
  let seconds := size / 1000000
  let fine :=
    if size % 60000000 = 0 then ""
    else ":" ++ padded 2 (seconds % 60) ++ microsText (size % 1000000)
  let mark := if offset < 0 then "-" else "+"
  mark ++ padded 2 (seconds / 3600) ++ ":" ++ padded 2 (seconds / 60 % 60) ++ fine

/-- Date, time and offset with a text between date and time. -/
def textWith (between : String) (moment : Moment) : String :=
  let time := moment.time
  moment.date.text ++ between ++ padded 2 time.hour ++ ":" ++ padded 2 time.minute ++ ":" ++
    padded 2 time.second ++ microsText time.micro ++ (moment.offset?.map offsetText).getD ""

def isoText : Moment → String := textWith "T"

def text : Moment → String := textWith " "

/-- The zone of an offset as it stands inside a list or an object. -/
def zoneText (offset : Int) : String :=
  if offset = 0 then "datetime.timezone.utc"
  else s!"datetime.timezone({(SpanParts.ofMicros offset).text})"

/-- A moment as it stands inside a list or an object. -/
def quotedText (moment : Moment) : String :=
  let time := moment.time
  let fine :=
    if time.micro ≠ 0 then s!", {time.second}, {time.micro}"
    else if time.second ≠ 0 then s!", {time.second}"
    else ""
  let zone := (moment.offset?.map fun offset => s!", tzinfo={zoneText offset}").getD ""
  let date := moment.date
  s!"datetime.datetime({date.year}, {date.month}, {date.day}, {time.hour}, {time.minute}{fine}{zone})"

theorem equal_comm (first second : Moment) : first.equal second = second.equal first := by
  simp only [equal]
  rw [Bool.beq_comm, Bool.beq_comm (a := first.instant)]

/-- Of two moments of one sort one is earlier unless they name the same instant. -/
theorem earlier_total {first second : Moment} (sort : first.hasOffset = second.hasOffset) :
    first.earlier? second = some true ∨ first.equal second = true ∨
      second.earlier? first = some true := by
  simp only [earlier?, equal, sort, beq_self_eq_true, if_true, Bool.true_and]
  rcases Int.lt_trichotomy first.instant second.instant with before | same | after
  · exact .inl (by simp [before])
  · exact .inr (.inl (by simp [same]))
  · exact .inr (.inr (by simp [after]))

end Moment

end FormRules

/-!
The calendar of the years 1 to 9999, its days counted from the first of January of the year 1.
Main statement: a date is made again from its own three numbers.
-/

namespace FormRules

namespace Calendar

def isLeap (year : Nat) : Bool := year % 4 == 0 && (year % 100 != 0 || year % 400 == 0)

def daysInMonth (year month : Nat) : Nat :=
  match month with
  | 2 => if isLeap year then 29 else 28
  | 4 | 6 | 9 | 11 => 30
  | _ => 31

/-- The days of a year before one of its months. -/
def daysBeforeMonth (year : Nat) : Nat → Nat
  | 0 | 1 => 0
  | month + 2 => daysBeforeMonth year (month + 1) + daysInMonth year (month + 1)

/-- The days before a year; the year 0 counts as a leap year. -/
def daysBeforeYear (year : Int) : Int :=
  let past := year - 1
  past * 365 + past.fdiv 4 - past.fdiv 100 + past.fdiv 400

/-- Why numbers name no date or no time of day. -/
inductive Misfit where
  | year (given : Nat)
  | month
  | day
  | hour
  | minute
  | second
deriving DecidableEq, Repr

def Misfit.message : Misfit → String
  | .year given => s!"year {given} is out of range"
  | .month => "month must be in 1..12"
  | .day => "day is out of range for month"
  | .hour => "hour must be in 0..23"
  | .minute => "minute must be in 0..59"
  | .second => "second must be in 0..59"

end Calendar

structure Date where
  year : Nat
  month : Nat
  day : Nat
  year_valid : 1 ≤ year ∧ year ≤ 9999
  month_valid : 1 ≤ month ∧ month ≤ 12
  day_valid : 1 ≤ day ∧ day ≤ Calendar.daysInMonth year month
deriving DecidableEq

namespace Date

open Calendar

/-- The date of three numbers; the first one that is out of range is reported. -/
def of (year month day : Nat) : Except Misfit Date :=
  if yearly : 1 ≤ year ∧ year ≤ 9999 then
    if monthly : 1 ≤ month ∧ month ≤ 12 then
      if daily : 1 ≤ day ∧ day ≤ daysInMonth year month then
        .ok ⟨year, month, day, yearly, monthly, daily⟩
      else .error .day
    else .error .month
  else .error (.year year)

/-- The count of days up to a date, the first of January of the year 1 being day 1. -/
def ordinal (date : Date) : Int :=
  daysBeforeYear date.year + daysBeforeMonth date.year date.month + date.day

/-- The day of the week, from 0 for Sunday to 6 for Saturday. -/
def weekday (date : Date) : Nat := (date.ordinal % 7).toNat

/-- The month and day of a day of the year, the months from `month` on being tried. -/
def monthDay (year : Nat) : Nat → Nat → Nat → Nat × Nat
  | 0, month, day => (month, day)
  | more + 1, month, day =>
    if day ≤ daysInMonth year month then (month, day)
    else monthDay year more (month + 1) (day - daysInMonth year month)

/-- The date with a given ordinal. What lies before the first year has no month, what lies after
the last one no year. -/
def ofOrdinal (ordinal : Int) : Except Misfit Date :=
  if ordinal < 1 then .error .month
  else
    let guess := (ordinal - 1) * 400 / 146097 + 1
    let year := if ordinal ≤ daysBeforeYear guess then guess - 1
      else if daysBeforeYear (guess + 1) < ordinal then guess + 1 else guess
    let (month, day) := monthDay year.toNat 11 1 (ordinal - daysBeforeYear year).toNat
    of year.toNat month day

/-- The Monday that begins the first week of a year, the week of the year's first Thursday. -/
def firstMonday (year : Nat) : Int :=
  let first := daysBeforeYear year + 1
  let place := (first - 1) % 7
  first - place + (if 3 < place then 7 else 0)

/-- Whether a year has a fifty-third week: it begins on a Thursday, or on a Wednesday if it is a
leap year. -/
def hasLongYear (year : Nat) : Bool :=
  let place := daysBeforeYear year % 7
  place == 3 || (place == 2 && isLeap year)

/-- The ordinal of a day of a week of a year. -/
def weekOrdinal? (year week day : Nat) : Option Int :=
  if (1 ≤ week && (week ≤ 52 || (week == 53 && hasLongYear year))) && 1 ≤ day && day ≤ 7 then
    some (firstMonday year + (week - 1) * 7 + (day - 1))
  else none

theorem of_eq_ok (date : Date) : of date.year date.month date.day = .ok date := by
  simp [of, date.year_valid, date.month_valid, date.day_valid]

end Date

end FormRules

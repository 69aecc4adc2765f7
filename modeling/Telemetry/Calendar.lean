/-!
The proleptic Gregorian calendar, with a year zero and negative years. Days are numbered
from 0001-01-01, which is day zero.

- `daysBeforeYear` and `isLeap`: the calendar as a count of days.
- `Date.ofDay`: the date of a day; `Date.toDay`: the day of a date.
-/

namespace Telemetry

/-- A leap year: a multiple of four, of the centuries only the multiples of 400. -/
def isLeap (year : Int) : Bool :=
  year % 4 = 0 && (year % 100 != 0 || year % 400 = 0)

/-- The days from 0001-01-01 to the first day of a year. -/
def daysBeforeYear (year : Int) : Int :=
  let past := year - 1
  365 * past + past / 4 - past / 100 + past / 400

def monthLengths (leap : Bool) : List Nat :=
  [31, if leap then 29 else 28, 31, 30, 31, 30, 31, 31, 30, 31, 30, 31]

/-- The year of a day and the days of that year before it: whole cycles of 400 years,
centuries, cycles of four years and years, the last century and the last year of a cycle
being the ones that are a day longer. -/
def yearOfDay (day : Int) : Int × Nat :=
  let in400 := (day % 146097).toNat
  let century := min (in400 / 36524) 3
  let in100 := in400 - 36524 * century
  let in4 := in100 % 1461
  let single := min (in4 / 365) 3
  let years := 100 * century + 4 * (in100 / 1461) + single
  (400 * (day / 146097) + years + 1, in4 - 365 * single)

/-- The month, counted from zero, and the day of the month, counted from zero. -/
def monthOfDay : List Nat → Nat → Nat × Nat
  | [], day => (0, day)
  | length :: rest, day =>
    if day < length then (0, day)
    else
      let later := monthOfDay rest (day - length)
      (later.1 + 1, later.2)

/-- A date of the calendar; months and days count from one. -/
structure Date where
  year : Int
  month : Nat
  day : Nat
  deriving DecidableEq, Repr

def Date.ofDay (day : Int) : Date :=
  let inYear := yearOfDay day
  let inMonth := monthOfDay (monthLengths (isLeap inYear.1)) inYear.2
  ⟨inYear.1, inMonth.1 + 1, inMonth.2 + 1⟩

/-- The days of a year before a month. -/
def daysBeforeMonth (leap : Bool) (month : Nat) : Nat :=
  ((monthLengths leap).take (month - 1)).foldr (· + ·) 0

def Date.toDay (date : Date) : Int :=
  daysBeforeYear date.year
    + (daysBeforeMonth (isLeap date.year) date.month : Nat)
    + (date.day - 1 : Nat)

/-- The day 1970-01-01, from which epoch times count. -/
def epochDay : Int := 719162

example : (Date.ofDay epochDay, (Date.mk 1970 1 1).toDay) = (⟨1970, 1, 1⟩, epochDay) := by
  decide

example : (Date.ofDay (-1), Date.ofDay (epochDay + 11016)) = (⟨0, 12, 31⟩, ⟨2000, 2, 29⟩) := by
  decide

end Telemetry

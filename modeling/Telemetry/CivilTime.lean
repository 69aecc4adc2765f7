import Telemetry.Calendar
import Telemetry.Decimal.Fixed

/-!
Dates and times of day as documents give them, with or without an offset from UTC.

- `CivilTime.problem?`: why there is no such time.
- `CivilTime.inUtc`: the same instant without an offset of its own.
- `CivilTime.render`: the text of a time on its own.
- `CivilTime.spelled`: its text inside a list or a map, which names its parts.
-/

namespace Telemetry

structure TimeOfDay where
  hour : Nat
  minute : Nat
  second : Nat
  microsecond : Nat
  deriving DecidableEq, Repr

/-- A date, a time of day, or both; the offset is in minutes east of UTC. -/
inductive CivilTime where
  | date (date : Date)
  | time (time : TimeOfDay)
  | dateTime (date : Date) (time : TimeOfDay) (offset : Option Int)
  deriving DecidableEq, Repr

def minutesPerDay : Nat := 1440

/-- The text of a span of minutes: whole days, and the seconds after them. -/
def spanText (minutes : Int) : String :=
  let days := minutes / minutesPerDay
  let seconds := minutes % minutesPerDay * 60
  let parts :=
    (if days = 0 then [] else ["days=" ++ Decimal.integer days]) ++
      if seconds = 0 then [] else ["seconds=" ++ Decimal.integer seconds]
  "datetime.timedelta(" ++ (if parts = [] then "0" else ", ".intercalate parts) ++ ")"

inductive CivilProblem where
  | year (year : Int)
  | month
  | day
  | hour
  | minute
  | second
  | offset (minutes : Int)
  deriving DecidableEq, Repr

def CivilProblem.message : CivilProblem → String
  | .year n => "year " ++ Decimal.integer n ++ " is out of range"
  | .month => "month must be in 1..12"
  | .day => "day is out of range for month"
  | .hour => "hour must be in 0..23"
  | .minute => "minute must be in 0..59"
  | .second => "second must be in 0..59"
  | .offset minutes =>
    "offset must be a timedelta strictly between -timedelta(hours=24) and " ++
      "timedelta(hours=24), not " ++ spanText minutes ++ "."

/-- The number of days of a month, none for a month that does not exist. -/
def daysInMonth (year : Int) (month : Nat) : Nat :=
  if month = 0 then 0 else (monthLengths (isLeap year)).getD (month - 1) 0

/-- Why there is no such date: years have one to four digits. -/
def Date.problem? (d : Date) : Option CivilProblem :=
  if d.year < 1 ∨ 9999 < d.year then some (.year d.year)
  else if d.month < 1 ∨ 12 < d.month then some .month
  else if d.day < 1 ∨ daysInMonth d.year d.month < d.day then some .day
  else none

namespace TimeOfDay

def problem? (t : TimeOfDay) : Option CivilProblem :=
  if 23 < t.hour then some .hour
  else if 59 < t.minute then some .minute
  else if 59 < t.second then some .second
  else none

/-- The text of a time of day: microseconds only if there are any. -/
def render (t : TimeOfDay) : List Char :=
  Decimal.padded 2 t.hour ++ ':' :: Decimal.padded 2 t.minute ++
    ':' :: Decimal.padded 2 t.second ++
    if t.microsecond = 0 then [] else '.' :: Decimal.padded 6 t.microsecond

/-- The parts of a time of day as texts, without the last ones that are zero. -/
def parts (t : TimeOfDay) : List String :=
  let shown :=
    if t.microsecond ≠ 0 then [t.hour, t.minute, t.second, t.microsecond]
    else if t.second ≠ 0 then [t.hour, t.minute, t.second]
    else [t.hour, t.minute]
  shown.map fun (n : Nat) => Decimal.integer n

end TimeOfDay

namespace CivilTime

def problem? : CivilTime → Option CivilProblem
  | .date d => d.problem?
  | .time t => t.problem?
  | .dateTime d t offset =>
    let far := offset.filter fun minutes => decide (minutesPerDay ≤ minutes.natAbs)
    (far.map .offset).or (d.problem?.or t.problem?)

/-- A time with an offset as the same instant in UTC; other times are no instants and stay
as they are. -/
def inUtc : CivilTime → CivilTime
  | .dateTime d t (some offset) =>
    let minutes := 60 * (t.hour : Int) + t.minute - offset
    let ofDay := (minutes % minutesPerDay).toNat
    .dateTime (Date.ofDay (d.toDay + minutes / minutesPerDay))
      { t with hour := ofDay / 60, minute := ofDay % 60 } (some 0)
  | t => t

def dateText (d : Date) : List Char :=
  Decimal.padded 4 d.year.toNat ++ '-' :: Decimal.padded 2 d.month ++
    '-' :: Decimal.padded 2 d.day

/-- The text of an offset in hours and minutes. -/
def offsetText (minutes : Int) : List Char :=
  (if minutes < 0 then '-' else '+') ::
    Decimal.padded 2 (minutes.natAbs / 60) ++ ':' :: Decimal.padded 2 (minutes.natAbs % 60)

def render : CivilTime → String
  | .date d => String.ofList (dateText d)
  | .time t => String.ofList t.render
  | .dateTime d t offset =>
    String.ofList (dateText d ++ ' ' :: t.render ++
      match offset with
      | none => []
      | some minutes => offsetText minutes)

def dateParts (d : Date) : List String :=
  [Decimal.integer d.year, Decimal.integer d.month, Decimal.integer d.day]

/-- The offset as the last part of a time. -/
def zoneText (minutes : Int) : String :=
  "tzinfo=" ++
    if minutes = 0 then "datetime.timezone.utc"
    else "datetime.timezone(" ++ spanText minutes ++ ")"

/-- The text of a time inside a list or a map. -/
def spelled : CivilTime → String
  | .date d => "datetime.date(" ++ ", ".intercalate (dateParts d) ++ ")"
  | .time t => "datetime.time(" ++ ", ".intercalate (t.parts) ++ ")"
  | .dateTime d t offset =>
    "datetime.datetime(" ++
      ", ".intercalate
        (dateParts d ++ t.parts ++ (offset.map zoneText).toList) ++ ")"

/-- A quarter past midnight, two hours east of UTC, is the day before there. -/
example :
    inUtc (.dateTime ⟨2000, 3, 1⟩ ⟨0, 15, 7, 9⟩ (some 120)) =
      .dateTime ⟨2000, 2, 29⟩ ⟨22, 15, 7, 9⟩ (some 0) := by
  decide

end CivilTime
end Telemetry

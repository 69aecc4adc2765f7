import Telemetry.Calendar
import Telemetry.Fault
import Telemetry.Power

/-!
Timestamps of the wire format: UTC with milliseconds, `Y-MM-DDTHH:MM:SS.mmmZ`, where the
year has no leading zeros. Only years 1 to 9999 have one.
-/

namespace Telemetry.Timestamp

structure Moment where
  date : Date
  hour : Nat
  minute : Nat
  second : Nat
  millisecond : Nat
  deriving DecidableEq, Repr

def Moment.ofMillis (millis : Int) : Moment :=
  let seconds := millis / 1000
  let ofDay := (seconds % 86400).toNat
  { date := Date.ofDay (seconds / 86400 + epochDay)
    hour := ofDay / 3600
    minute := ofDay / 60 % 60
    second := ofDay % 60
    millisecond := (millis % 1000).toNat }

def Moment.toMillis (m : Moment) : Int :=
  (((m.date.toDay - epochDay) * 24 + m.hour) * 60 + m.minute) * 60000
    + m.second * 1000 + m.millisecond

def Moment.render (m : Moment) : List Char :=
  Decimal.natural m.date.year.toNat ++ '-' :: Decimal.padded 2 m.date.month ++
    '-' :: Decimal.padded 2 m.date.day ++ 'T' :: Decimal.padded 2 m.hour ++
    ':' :: Decimal.padded 2 m.minute ++ ':' :: Decimal.padded 2 m.second ++
    '.' :: Decimal.padded 3 m.millisecond ++ ['Z']

/-- The years that a broken-down time can hold: 32 bits, counted from 1900. -/
def holdsYear (year : Int) : Bool := -2147481748 ≤ year && year ≤ 2147485547

/-- The text of an epoch time in milliseconds. Seconds have to fit 64 bits, then the year
32 bits, then the four digits of the format; the reported year is the 32-bit one. -/
def format (millis : Int) : Except Fault String :=
  let seconds := millis / 1000
  let moment := Moment.ofMillis millis
  let year := moment.date.year
  if seconds < -(twoTo 63 : Nat) ∨ (twoTo 63 : Nat) ≤ seconds then .error .secondsOutOfRange
  else if !holdsYear year then .error .yearTooLarge
  else if year < 1 ∨ 9999 < year then .error (.yearOutOfRange (year.bmod (twoTo 32)))
  else .ok (String.ofList moment.render)

end Telemetry.Timestamp

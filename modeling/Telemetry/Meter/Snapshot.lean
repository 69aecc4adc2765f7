import Telemetry.Meter.Histogram
import Telemetry.Meter.Id

/-!
Snapshots: what a meter reports at the end of a step. Durations are in seconds.
-/

namespace Telemetry

inductive Statistic where
  | total | totalTime | count | max | value | unknown | activeTasks | duration
  deriving DecidableEq, Repr

namespace Statistic

def name : Statistic → String
  | .total => "total"
  | .totalTime => "total_time"
  | .count => "count"
  | .max => "max"
  | .value => "value"
  | .unknown => "unknown"
  | .activeTasks => "active_tasks"
  | .duration => "duration"

def suffix : Statistic → String
  | .total | .totalTime => "total"
  | .count => "count"
  | .max => "max"
  | .value => "value"
  | .unknown => "unknown"
  | .activeTasks => "active"
  | .duration => "duration"

def all : List Statistic :=
  [.total, .totalTime, .count, .max, .value, .unknown, .activeTasks, .duration]

def ofName (word : String) : Except Fault Statistic :=
  match all.find? (·.name = word) with
  | some statistic => .ok statistic
  | none => .error (.unknownName .statistic word)

end Statistic

structure Measurement where
  statistic : Statistic
  value : Value.Number
  deriving DecidableEq

/-- What a meter reports. A foreign reading comes from a meter of a kind that is not one
of the nine; it has the name of its kind. -/
inductive Reading where
  | gauge (value : Binary64)
  | timeGauge (seconds : Binary64)
  | counter (count : Binary64)
  | functionCounter (count : Binary64)
  | timer (histogram : Histogram)
  | summary (histogram : Histogram)
  | longTaskTimer (active : Int) (seconds : Value.Number)
  | functionTimer (count totalSeconds : Binary64)
  | custom (measurements : List Measurement)
  | foreign (kind : String)

def Reading.kindName : Reading → String
  | .gauge _ => report .gauge
  | .timeGauge _ => report .timeGauge
  | .counter _ => report .counter
  | .functionCounter _ => report .functionCounter
  | .timer _ => report .timer
  | .summary _ => report .distributionSummary
  | .longTaskTimer .. => report .longTaskTimer
  | .functionTimer .. => report .functionTimer
  | .custom _ => report .other
  | .foreign kind => kind
where
  report (type : MeterType) : String := type.title ++ "Snapshot"

structure Snapshot where
  id : MeterId
  reading : Reading

/-- The mean duration of a function timer, zero if its count is zero or unknown. -/
def functionTimerMean (count totalSeconds : Binary64) : Binary64 :=
  if count.isZero || count.isNaN then .zero else totalSeconds / count

end Telemetry

import Telemetry.Fault

/-!
How a point relates to time, and the type of its value.
-/

namespace Telemetry

inductive MetricKind where
  | gauge | delta | cumulative
  deriving DecidableEq, Repr

namespace MetricKind

def name : MetricKind → String
  | .gauge => "GAUGE"
  | .delta => "DELTA"
  | .cumulative => "CUMULATIVE"

def all : List MetricKind := [.gauge, .delta, .cumulative]

def ofName? (word : String) : Option MetricKind := all.find? (·.name = word)

def ofName (word : String) : Except Fault MetricKind :=
  match ofName? word with
  | some kind => .ok kind
  | none => .error (.unknownName .metricKind word)

/-- Whether points of the kind cover an interval and not only an instant. -/
def requiresStart : MetricKind → Bool
  | .gauge => false
  | .delta | .cumulative => true

end MetricKind

inductive ValueType where
  | double | int64 | distribution
  deriving DecidableEq, Repr

namespace ValueType

def name : ValueType → String
  | .double => "DOUBLE"
  | .int64 => "INT64"
  | .distribution => "DISTRIBUTION"

def all : List ValueType := [.double, .int64, .distribution]

def ofName (word : String) : Except Fault ValueType :=
  match all.find? (·.name = word) with
  | some type => .ok type
  | none => .error (.unknownName .valueType word)

end ValueType
end Telemetry

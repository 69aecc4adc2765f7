import Telemetry.OrderedMap
import Telemetry.Series.Distribution
import Telemetry.Series.Kind
import Telemetry.Timestamp
import Telemetry.Value.Number

/-!
Time series records and their wire form.

- `TypedValue`: the value of a point, of one of three types.
- `BatchWindow`: the time that one publish cycle covers, in epoch milliseconds.
- `TimeSeries.toValue`: the request body of a record.
-/

namespace Telemetry

/-- The value of a point. A distribution has precedence over an integer, and an integer
over a double. -/
structure TypedValue where
  double : Option Binary64 := none
  int64 : Option Int := none
  distribution : Option Distribution := none
  deriving DecidableEq

namespace TypedValue

def ofDouble (x : Binary64) : TypedValue := { double := some x }

def ofInt64 (n : Int) : TypedValue := { int64 := some n }

def ofDistribution (d : Distribution) : TypedValue := { distribution := some d }

def doubleOfNumber (n : Value.Number) : Except Fault TypedValue := n.toBinary64.map ofDouble

def int64OfNumber (n : Value.Number) : Except Fault TypedValue := n.toInteger.map ofInt64

def toValue (v : TypedValue) : Except Fault Value :=
  match v.distribution, v.int64, v.double with
  | some d, _, _ => d.toValue.map fun shown => .ofFields [("distributionValue", shown)]
  | none, some n, _ => (Decimal.shown n).map fun shown => .ofFields [("int64Value", .text shown)]
  | none, none, some x => .ok (.ofFields [("doubleValue", .float x)])
  | none, none, none => .ok (.ofFields [("doubleValue", .null)])

end TypedValue

structure BatchWindow where
  start : Int
  stop : Int
  deriving DecidableEq, Repr

/-- The window after one that ended at `previousEnd`: it starts a millisecond later, so
that windows never overlap. -/
def BatchWindow.following (previousEnd wallTime : Int) : BatchWindow :=
  ⟨previousEnd + 1, wallTime⟩

/-- The time of a point: an end, and a start unless it is an instant. -/
structure TimeInterval where
  stop : Int
  start : Option Int := none
  deriving DecidableEq, Repr

namespace TimeInterval

def ofWindow (window : BatchWindow) (kind : MetricKind) : TimeInterval :=
  if kind.requiresStart then ⟨window.stop, some window.start⟩ else ⟨window.stop, none⟩

def toValue (i : TimeInterval) : Except Fault Value := do
  let stop ← Timestamp.format i.stop
  match i.start with
  | none => return .ofFields [("endTime", .text stop)]
  | some start =>
    let start ← Timestamp.format start
    return .ofFields [("endTime", .text stop), ("startTime", .text start)]

end TimeInterval

/-- A point: a value at a time. -/
structure Point where
  interval : TimeInterval
  value : TypedValue
  deriving DecidableEq

/-- What a series is about. The type and the project come from the configuration as they
are. -/
structure Resource where
  type : Value
  labels : OrderedMap String Value

structure TimeSeries where
  metricType : String
  labels : OrderedMap String String
  resource : Resource
  kind : MetricKind
  valueType : ValueType
  point : Point

namespace TimeSeries

def toValue (r : TimeSeries) : Except Fault Value := do
  let interval ← r.point.interval.toValue
  let value ← r.point.value.toValue
  return .ofFields [
    ("metric", .ofFields [
      ("type", .text r.metricType),
      ("labels", .ofFields (r.labels.entries.map fun l => (l.1, .text l.2)))]),
    ("resource", .ofFields [
      ("type", r.resource.type),
      ("labels", .ofFields r.resource.labels.entries)]),
    ("metricKind", .text r.kind.name),
    ("valueType", .text r.valueType.name),
    ("points", .list [.ofFields [("interval", interval), ("value", value)]])]

end TimeSeries
end Telemetry

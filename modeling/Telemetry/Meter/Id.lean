import Telemetry.Fault
import Telemetry.OrderedMap

/-!
The identity of a meter: a name, tags sorted by key in code point order, a description
and a type. Two mappings of tags give the same id exactly when they are the same mapping.
-/

namespace Telemetry

inductive MeterType where
  | gauge | timeGauge | counter | functionCounter | timer | distributionSummary
  | longTaskTimer | functionTimer | other
  deriving DecidableEq, Repr

namespace MeterType

def name : MeterType → String
  | .gauge => "gauge"
  | .timeGauge => "time_gauge"
  | .counter => "counter"
  | .functionCounter => "function_counter"
  | .timer => "timer"
  | .distributionSummary => "distribution_summary"
  | .longTaskTimer => "long_task_timer"
  | .functionTimer => "function_timer"
  | .other => "other"

/-- The word for meters of a type, as it begins the names of their reports. -/
def title : MeterType → String
  | .gauge => "Gauge"
  | .timeGauge => "TimeGauge"
  | .counter => "Counter"
  | .functionCounter => "FunctionCounter"
  | .timer => "Timer"
  | .distributionSummary => "DistributionSummary"
  | .longTaskTimer => "LongTaskTimer"
  | .functionTimer => "FunctionTimer"
  | .other => "CustomMeter"

def all : List MeterType :=
  [.gauge, .timeGauge, .counter, .functionCounter, .timer, .distributionSummary,
    .longTaskTimer, .functionTimer, .other]

def ofName (word : String) : Except Fault MeterType :=
  match all.find? (·.name = word) with
  | some type => .ok type
  | none => .error (.unknownName .meterType word)

end MeterType

/-- What identifies a meter, and how it is described to the monitoring service. -/
structure MeterId where
  name : String
  tags : List (String × String) := []
  description : Option String := none
  type : MeterType := .other
  deriving DecidableEq

namespace MeterId

/-- Tags in ascending order of their keys. -/
def sortTags (tags : OrderedMap String String) : List (String × String) :=
  tags.entries.mergeSort fun a b => Text.atMost a.1 b.1

def create (name : String) (tags : OrderedMap String String)
    (description : Option String) (type : MeterType) : MeterId :=
  ⟨name, sortTags tags, description, type⟩

/-- The tags as a mapping; of a repeated key the last value counts. -/
def tagMap (id : MeterId) : OrderedMap String String := .ofList id.tags

end MeterId
end Telemetry

import Telemetry.Backend.DescriptorCache
import Telemetry.Config.Basic
import Telemetry.Meter.Snapshot
import Telemetry.Series.Naming
import Telemetry.Series.Record

/-!
From snapshots to time series records. Each kind of snapshot has its series, which are made in
turn: a series is looked up in the descriptor cache as soon as its value is known to be finite.
A value that is not finite costs its own series only; anything that raises ends the snapshot,
with whatever was looked up before.

- `SeriesBuilder.create`: the record of one series, under the kind that is in effect for it.
- `SeriesBuilder.double`, `distribution`: the same for values that have to be finite.
- `SeriesBuilder.series`: the series of a snapshot.
- `SeriesBuilder.build`: its records.
- `SeriesBuilder.buildAll`: the records of many; a snapshot that cannot be built is reported
  and skipped.
-/

namespace Telemetry

structure SeriesBuilder (σ : Type) where
  config : ExportConfig
  window : BatchWindow
  naming : NamingConvention
  client : Client σ

/-- What building works on: the cache, if there is one, and the service behind it; and the
notices so far. -/
structure BuildState (σ : Type) where
  cache : Option DescriptorCache
  backend : σ
  notices : List Notice

/-- A part of building, which may fail and leaves its mark either way. -/
abbrev Building (σ : Type) := ExceptT Fault (StateM (BuildState σ))

namespace SeriesBuilder

variable {σ : Type}

def scope (config : ExportConfig) : DescriptorScope :=
  ⟨config.projectName, config.metricTypePrefix.render⟩

/-- The monitored resource of every record. A configured label may replace the project. -/
def resource (config : ExportConfig) : Resource where
  type := config.resourceType
  labels := (OrderedMap.empty.insert "project_id" config.projectId).insertAll
    (config.resourceLabels.entries.map fun l => (l.1, .text l.2))

def metricType (config : ExportConfig) (name : String) (suffix : Option String) : String :=
  config.metricTypePrefix.render ++ name ++
    match suffix with
    | none => ""
    | some s => "/" ++ s

def requestedKind (config : ExportConfig) (kind : MetricKind) : MetricKind :=
  if config.cumulativeEnabled.truthy then kind else .gauge

def percentPlaces : Nat := 4

def percentileSuffix (fraction : Value.Number) : Except Fault String :=
  (fraction.times 100).toBinary64.map fun percentage =>
    "p" ++ Decimal.shortFixed percentPlaces percentage

/-! ## One series -/

/-- The kind that is in effect for a descriptor; without a cache the kind asked for. -/
def ensure (b : SeriesBuilder σ) (d : MetricDescriptor) : Building σ MetricKind := fun st =>
  match st.cache with
  | none => (.ok d.kind, st)
  | some cache =>
    let found := cache.ensure b.client (scope b.config) d st.backend
    (found.outcome, ⟨some found.cache, found.backend, st.notices ++ found.notices⟩)

def create (b : SeriesBuilder σ) (id : MeterId) (suffix : Option String) (value : TypedValue)
    (valueType : ValueType) (kind : MetricKind) : Building σ TimeSeries := do
  let requested := requestedKind b.config kind
  let name ← b.naming.name id
  let type := metricType b.config name suffix
  let kind ← b.ensure ⟨type, requested, valueType, id.description.getD ""⟩
  return {
    metricType := type
    labels := b.naming.labels id
    resource := resource b.config
    kind
    valueType
    point := ⟨.ofWindow b.window kind, value⟩ }

/-- Nothing for a series whose value is not finite; the log names its meter. -/
def skip (b : SeriesBuilder σ) (id : MeterId) : Building σ (Option TimeSeries) := do
  let _ ← b.naming.name id
  return none

def double (b : SeriesBuilder σ) (id : MeterId) (suffix : Option String) (value : Value.Number)
    (kind : MetricKind := .gauge) : Building σ (Option TimeSeries) := do
  let x ← value.toBinary64
  if x.isFinite then
    return some (← b.create id suffix (.ofDouble x) .double kind)
  else b.skip id

/-- The record of a number in the unit of export, which is a duration in seconds if `timed`. -/
def scaled (b : SeriesBuilder σ) (id : MeterId) (suffix : Option String) (timed : Bool)
    (value : Value.Number) : Building σ (Option TimeSeries) := do
  b.double id suffix (← Distribution.scaleNumber timed value)

def distribution (b : SeriesBuilder σ) (id : MeterId) (d : Distribution) :
    Building σ (Option TimeSeries) := do
  if d.mean.isFinite then
    return some (← b.create id none (.ofDistribution d) .distribution .gauge)
  else b.skip id

/-! ## The series of a snapshot -/

/-- The series of a histogram, whose values are durations in seconds if `timed`. -/
def ofHistogram (b : SeriesBuilder σ) (id : MeterId) (timed : Bool) (h : Histogram) :
    Building σ (List (Option TimeSeries)) := do
  let distribution ← b.distribution id (← Distribution.ofHistogram h timed)
  let max ← b.scaled id (some "max") timed h.max
  let count ← b.double id (some "count") (.int h.count) .cumulative
  let percentiles ← h.percentiles.mapM fun p => do
    b.scaled id (some (← percentileSuffix p.fraction)) timed p.value
  return distribution :: max :: count :: percentiles

def ofLongTasks (b : SeriesBuilder σ) (id : MeterId) (active : Int) (seconds : Value.Number) :
    Building σ (List (Option TimeSeries)) := do
  let tasks ← b.create id (some "activeTasks") (.ofInt64 active) .int64 .gauge
  let duration ← b.scaled id (some "duration") true seconds
  return [some tasks, duration]

/-- The series of a function timer, of which only the count and the mean are known. -/
def ofFunctionTimer (b : SeriesBuilder σ) (id : MeterId) (count totalSeconds : Binary64) :
    Building σ (Option TimeSeries) := do
  if count.isFinite then
    let mean := toBaseUnit (functionTimerMean count totalSeconds)
    b.distribution id (← Distribution.pointMass count mean)
  else b.skip id

def series (b : SeriesBuilder σ) (snapshot : Snapshot) : Building σ (List (Option TimeSeries)) :=
  let id := snapshot.id
  match snapshot.reading with
  | .gauge value => return [← b.double id none value]
  | .timeGauge seconds => return [← b.double id none (toBaseUnit seconds)]
  | .counter count | .functionCounter count => return [← b.double id none count .cumulative]
  | .timer h => b.ofHistogram id true h
  | .summary h => b.ofHistogram id false h
  | .longTaskTimer active seconds => b.ofLongTasks id active seconds
  | .functionTimer count totalSeconds => return [← b.ofFunctionTimer id count totalSeconds]
  | .custom measurements =>
    measurements.mapM fun m => b.double id (some m.statistic.suffix) m.value
  | .foreign kind => throw (.unsupportedSnapshot kind)

def build (b : SeriesBuilder σ) (snapshot : Snapshot) (st : BuildState σ) :
    Except Fault (List TimeSeries) × BuildState σ :=
  let made := b.series snapshot st
  (made.1.map (·.filterMap id), made.2)

def buildAll (b : SeriesBuilder σ) : List Snapshot → BuildState σ →
    List TimeSeries × BuildState σ
  | [], st => ([], st)
  | snapshot :: rest, st =>
    match b.build snapshot st with
    | (.error fault, st) =>
      buildAll b rest
        { st with notices := st.notices ++ [.seriesNotBuilt snapshot.id.name fault] }
    | (.ok built, st) =>
      let later := buildAll b rest st
      (built ++ later.1, later.2)

end SeriesBuilder
end Telemetry

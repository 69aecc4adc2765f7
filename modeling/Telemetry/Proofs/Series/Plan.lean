import Telemetry.Proofs.Binary64.Exactness
import Telemetry.Proofs.Series.Distribution
import Telemetry.Series.Builder

/-!
The series of a snapshot as data. A builder makes them one by one, with a lookup after each
check; here they are a table of values and a plan of lookups, so that the rest of the theory need
not follow the builder through its handlers.

Proved here:

* `double_eq`, `distribution_eq`, `create_eq`: each helper of the builder makes one row of a table;
* `ofHistogram_eq`: the rows of a histogram, where only its encoding can fail before the first;
* `series_eq`: making the series of a snapshot is going through its table;
* `build_eq`: hence a snapshot is its planned lookups in turn, and then the fault that ends them, if
  there is one.
-/

namespace Telemetry

variable {σ : Type}

theorem Histogram.exists_mean_iff (h : Histogram) :
    (∃ mean, h.mean = .ok mean) ↔ (Binary64.ofInt h.count).isInfinite = false := by
  by_cases h0 : h.count = 0
  · have hfinite : (Binary64.ofInt 0).isInfinite = false := by decide +kernel
    simp [mean, h0, hfinite]
  · cases hcount : (Binary64.ofInt h.count).isInfinite <;>
      simp [mean, h0, Binary64.ofIntWithin, hcount, Except.map]

/-! ## Tables -/

/-- The number is an integer beyond the doubles. -/
def Value.Number.isOversized : Number → Bool
  | .int n => (Binary64.ofInt n).isInfinite
  | .float _ => false

theorem Value.Number.toBinary64_eq (n : Number) :
    n.toBinary64 = if n.isOversized then .error .integerTooLarge else .ok n.nearest := by
  cases n <;> rfl

/-- The value of a series. A point mass is the distribution of a number of observations of
which only the mean is known. -/
inductive SeriesValue where
  | double (x : Binary64)
  | int64 (n : Int)
  | distribution (d : Distribution)
  | pointMass (count mean : Binary64)
  deriving DecidableEq

namespace SeriesValue

def type : SeriesValue → ValueType
  | .double _ => .double
  | .int64 _ => .int64
  | .distribution _ => .distribution
  | .pointMass .. => .distribution

/-- Whether the value can be sent: of a distribution the mean has to be finite, of a point
mass also the count. -/
def isFinite : SeriesValue → Bool
  | .double x => x.isFinite
  | .int64 _ => true
  | .distribution d => d.mean.isFinite
  | .pointMass count mean => count.isFinite && mean.isFinite

/-- The value of a point. -/
def typed? (v : SeriesValue) : Option TypedValue :=
  if v.isFinite then
    match v with
    | .double x => some (.ofDouble x)
    | .int64 n => some (.ofInt64 n)
    | .distribution d => some (.ofDistribution d)
    | .pointMass count mean => (Distribution.pointMass count mean).toOption.map .ofDistribution
  else none

end SeriesValue

/-- One row of a series table. An oversized one cannot be had, as an integer in it is beyond the
doubles. -/
structure SeriesEntry where
  suffix : Option String
  value : SeriesValue
  kind : MetricKind
  oversized : Bool := false
  deriving DecidableEq

namespace SeriesTable

def gauge (suffix : Option String) (x : Binary64) : SeriesEntry :=
  ⟨suffix, .double x, .gauge, false⟩

def cumulative (suffix : Option String) (x : Binary64) : SeriesEntry :=
  ⟨suffix, .double x, .cumulative, false⟩

/-- The row of a number that is a duration in seconds if `timed`. -/
def number (suffix : Option String) (timed : Bool) (n : Value.Number) : SeriesEntry :=
  ⟨suffix, .double (Distribution.scale timed n.nearest), .gauge, n.isOversized⟩

/-- The row of a percentile. -/
def percentile (timed : Bool) (p : PercentileValue) : SeriesEntry :=
  { number (some ("p" ++ Decimal.shortFixed SeriesBuilder.percentPlaces
      (p.fraction.times 100).nearest)) timed p.value with
    oversized := (p.fraction.times 100).isOversized || p.value.isOversized }

/-- The table of a histogram, whose values are durations in seconds if `timed`. -/
def ofHistogram (timed : Bool) (h : Histogram) : Except Fault (List SeriesEntry) := do
  let distribution ← Distribution.ofHistogram h timed
  let count ← Binary64.ofIntWithin h.count
  return ⟨none, .distribution distribution, .gauge, false⟩ ::
    number (some "max") timed h.max ::
    cumulative (some "count") count ::
    h.percentiles.map (percentile timed)

/-- The table of a reading. -/
def ofReading : Reading → Except Fault (List SeriesEntry)
  | .gauge value => .ok [gauge none value]
  | .timeGauge seconds => .ok [gauge none (toBaseUnit seconds)]
  | .counter count => .ok [cumulative none count]
  | .functionCounter count => .ok [cumulative none count]
  | .timer h => ofHistogram true h
  | .summary h => ofHistogram false h
  | .longTaskTimer active seconds =>
    .ok [⟨some "activeTasks", .int64 active, .gauge, false⟩,
      number (some "duration") true seconds]
  | .functionTimer count totalSeconds =>
    .ok [⟨none, .pointMass count (toBaseUnit (functionTimerMean count totalSeconds)), .gauge,
      false⟩]
  | .custom measurements =>
    .ok (measurements.map fun m => number (some m.statistic.suffix) false m.value)
  | .foreign kind => .error (.unsupportedSnapshot kind)

end SeriesTable

/-! ## Plans -/

/-- A series that will be sent, but for its kind. -/
structure PlannedSeries where
  descriptor : MetricDescriptor
  labels : OrderedMap String String
  value : TypedValue

/-- The series that are looked up in turn, and the fault that ends them, if there is one. -/
@[ext]
structure Agenda where
  series : List PlannedSeries
  fault : Option Fault

namespace SeriesBuilder

variable (b : SeriesBuilder σ)

/-- The plan of a table entry of a named meter, if its value is finite. -/
def planEntry (id : MeterId) (name : String) (entry : SeriesEntry) : Option PlannedSeries :=
  entry.value.typed?.map fun value =>
    { descriptor :=
        { type := metricType b.config name entry.suffix
          kind := requestedKind b.config entry.kind
          valueType := entry.value.type
          description := id.description.getD "" }
      labels := b.naming.labels id
      value }

/-- The plan of a table entry, whose meter needs a name. -/
def planRow (id : MeterId) (entry : SeriesEntry) : Except Fault (Option PlannedSeries) :=
  if entry.oversized then .error .integerTooLarge
  else (b.naming.name id).map fun name => b.planEntry id name entry

/-- The plan of a table, up to the first entry that cannot be planned. -/
def agendaOf (id : MeterId) : List SeriesEntry → Agenda
  | [] => ⟨[], none⟩
  | entry :: rest =>
    match b.planRow id entry with
    | .error fault => ⟨[], some fault⟩
    | .ok planned =>
      let later := agendaOf id rest
      ⟨planned.toList ++ later.series, later.fault⟩

/-- What building a snapshot comes to. -/
def agenda (snapshot : Snapshot) : Agenda :=
  match SeriesTable.ofReading snapshot.reading with
  | .error fault => ⟨[], some fault⟩
  | .ok table => b.agendaOf snapshot.id table

/-- The series of a snapshot whose values are finite, if none of them fails. -/
def plan (snapshot : Snapshot) : Except Fault (List PlannedSeries) :=
  match (b.agenda snapshot).fault with
  | some fault => .error fault
  | none => .ok (b.agenda snapshot).series

/-- The record of a planned series under a kind. -/
def finish (kind : MetricKind) (series : PlannedSeries) : TimeSeries where
  metricType := series.descriptor.type
  labels := series.labels
  resource := resource b.config
  kind := kind
  valueType := series.descriptor.valueType
  point := ⟨.ofWindow b.window kind, series.value⟩

/-- The record of a planned series, under the kind that is in effect for its type. -/
def record (series : PlannedSeries) (st : BuildState σ) : Except Fault TimeSeries × BuildState σ :=
  let found := b.ensure series.descriptor st
  (found.1.map fun kind => b.finish kind series, found.2)

/-- The records of planned series in turn, up to the first that fails. -/
def records : List PlannedSeries → BuildState σ → Except Fault (List TimeSeries) × BuildState σ
  | [], st => (.ok [], st)
  | series :: rest, st =>
    match b.record series st with
    | (.error fault, st) => (.error fault, st)
    | (.ok first, st) =>
      let later := records rest st
      (later.1.map (first :: ·), later.2)

/-- The records of an agenda: its series in turn, and then its fault. -/
def carryOut (agenda : Agenda) (st : BuildState σ) :
    Except Fault (List TimeSeries) × BuildState σ :=
  let made := b.records agenda.series st
  (made.1.bind fun rs => agenda.fault.elim (.ok rs) .error, made.2)

/-! ## Steps of building -/

section Steps

variable {α β : Type} (st : BuildState σ)

theorem bind_run (x : Building σ α) (f : α → Building σ β) :
    (x >>= f : Building σ β) st = match (x st : Except Fault α × BuildState σ) with
      | (.error fault, after) => (.error fault, after)
      | (.ok a, after) => f a after := by
  show (match (x st : Except Fault α × BuildState σ) with
    | (outcome, after) => ExceptT.bindCont f outcome after : Except Fault β × BuildState σ) = _
  obtain ⟨outcome, after⟩ : Except Fault α × BuildState σ := x st
  cases outcome <;> rfl

theorem pure_run (a : α) : (pure a : Building σ α) st = (.ok a, st) := rfl

theorem lift_run (x : Except Fault α) : (liftM x : Building σ α) st = (x, st) := by
  cases x <;> rfl

theorem ok_bind (a : α) (f : α → Building σ β) :
    (liftM (Except.ok a : Except Fault α) >>= f : Building σ β) = f a := rfl

end Steps

/-- Making one row of a table. -/
def row (id : MeterId) (entry : SeriesEntry) : Building σ (Option TimeSeries) := fun st =>
  match b.planRow id entry with
  | .error fault => (.error fault, st)
  | .ok none => (.ok none, st)
  | .ok (some series) => ((b.record series st).1.map some, (b.record series st).2)

theorem row_of_typed {id : MeterId} {entry : SeriesEntry} {value : TypedValue}
    (hwithin : entry.oversized = false) (hvalue : entry.value.typed? = some value) :
    b.row id entry =
      (do return some (← b.create id entry.suffix value entry.value.type entry.kind)) := by
  funext st
  rw [row, planRow, hwithin, if_neg Bool.false_ne_true, create]
  simp only [bind_run, lift_run, pure_run]
  cases hname : b.naming.name id with
  | error fault => rfl
  | ok name =>
    simp only [Except.map, planEntry, hvalue, Option.map_some, record]
    cases b.ensure _ st with
    | mk outcome after => cases outcome <;> rfl

theorem row_of_skipped {id : MeterId} {entry : SeriesEntry}
    (hwithin : entry.oversized = false) (hvalue : entry.value.typed? = none) :
    b.row id entry = b.skip id := by
  funext st
  rw [row, planRow, hwithin, if_neg Bool.false_ne_true, skip]
  cases hname : b.naming.name id with
  | error fault => rfl
  | ok name =>
    simp only [Except.map, planEntry, hvalue, Option.map_none]
    rfl

theorem row_of_oversized {id : MeterId} {entry : SeriesEntry} (h : entry.oversized = true) :
    b.row id entry = throw .integerTooLarge := by
  funext st
  rw [row, planRow, if_pos h]
  rfl

theorem double_eq (id : MeterId) (suffix : Option String) (n : Value.Number) (kind : MetricKind) :
    b.double id suffix n kind = b.row id ⟨suffix, .double n.nearest, kind, n.isOversized⟩ := by
  rw [double, n.toBinary64_eq]
  cases hsize : n.isOversized with
  | true => rw [b.row_of_oversized rfl]; rfl
  | false =>
    rw [if_neg Bool.false_ne_true, ok_bind]
    have htyped : (SeriesValue.double n.nearest).typed? =
        if n.nearest.isFinite then some (.ofDouble n.nearest) else none := rfl
    cases hfinite : n.nearest.isFinite with
    | true =>
      rw [hfinite] at htyped
      rw [b.row_of_typed rfl htyped]
      rfl
    | false =>
      rw [hfinite] at htyped
      rw [b.row_of_skipped rfl htyped]
      rfl

theorem distribution_eq (id : MeterId) (d : Distribution) :
    b.distribution id d = b.row id ⟨none, .distribution d, .gauge, false⟩ := by
  have htyped : (SeriesValue.distribution d).typed? =
      if d.mean.isFinite then some (.ofDistribution d) else none := rfl
  rw [distribution]
  cases hfinite : d.mean.isFinite with
  | true => rw [b.row_of_typed rfl (htyped.trans (if_pos hfinite))]; rfl
  | false =>
    rw [b.row_of_skipped rfl (htyped.trans (if_neg (by rw [hfinite]; exact Bool.false_ne_true)))]
    rfl

theorem scaled_eq (id : MeterId) (suffix : Option String) (timed : Bool) (n : Value.Number) :
    b.scaled id suffix timed n = b.row id (SeriesTable.number suffix timed n) := by
  rw [scaled]
  cases timed with
  | false => exact b.double_eq id suffix n .gauge
  | true =>
    rw [Distribution.scaleNumber, if_pos rfl, Value.Number.toBaseUnit, n.toBinary64_eq]
    cases hsize : n.isOversized with
    | true => rw [b.row_of_oversized hsize]; rfl
    | false =>
      have hrow := b.double_eq id suffix (.float (toBaseUnit n.nearest)) .gauge
      rw [SeriesTable.number, hsize]
      exact hrow

theorem percentile_eq (id : MeterId) (timed : Bool) (p : PercentileValue) :
    (do b.scaled id (some (← percentileSuffix p.fraction)) timed p.value) =
      b.row id (SeriesTable.percentile timed p) := by
  rw [percentileSuffix, Value.Number.toBinary64_eq]
  cases hsize : (p.fraction.times 100).isOversized with
  | true =>
    rw [b.row_of_oversized (by rw [SeriesTable.percentile, hsize]; rfl)]
    rfl
  | false =>
    have hrow := b.scaled_eq id (some ("p" ++ Decimal.shortFixed percentPlaces
      (p.fraction.times 100).nearest)) timed p.value
    rw [SeriesTable.percentile, hsize, Bool.false_or]
    exact hrow

theorem functionTimer_eq (id : MeterId) (count totalSeconds : Binary64) :
    b.ofFunctionTimer id count totalSeconds = b.row id
      ⟨none, .pointMass count (toBaseUnit (functionTimerMean count totalSeconds)), .gauge,
        false⟩ := by
  rw [ofFunctionTimer]
  generalize toBaseUnit (functionTimerMean count totalSeconds) = mean
  have htyped : (SeriesValue.pointMass count mean).typed? =
      if count.isFinite && mean.isFinite then
        (Distribution.pointMass count mean).toOption.map .ofDistribution
      else none := rfl
  cases hcount : count.isFinite with
  | false =>
    rw [hcount] at htyped
    rw [b.row_of_skipped rfl htyped]
    rfl
  | true =>
    rw [if_pos rfl]
    obtain ⟨n, hn⟩ := Binary64.exists_toInteger hcount
    have hmass : Distribution.pointMass count mean = .ok ⟨n, mean, [.zero], [0, n]⟩ := by
      rw [Distribution.pointMass, hn]
      rfl
    rw [hcount, Bool.true_and, hmass] at htyped
    dsimp only
    rw [hmass, ok_bind, distribution]
    cases hmean : mean.isFinite with
    | true =>
      rw [hmean] at htyped
      rw [b.row_of_typed rfl htyped]
      rfl
    | false =>
      rw [hmean] at htyped
      rw [b.row_of_skipped rfl htyped]
      rfl

/-! ## Snapshots -/

/-- Once a histogram is encoded, nothing before its maximum fails: its count was converted for the
mean. -/
theorem ofHistogram_eq (id : MeterId) (timed : Bool) (h : Histogram) :
    b.ofHistogram id timed h =
      (do (← SeriesTable.ofHistogram timed h).mapM (b.row id)) := by
  rw [ofHistogram, SeriesTable.ofHistogram]
  cases hd : Distribution.ofHistogram h timed with
  | error fault => rfl
  | ok d =>
    obtain ⟨-, mean, -, hmean, -⟩ := Distribution.ofHistogram_inv hd
    have hwithin := h.exists_mean_iff.mp ⟨mean, hmean⟩
    have hcount := Binary64.ofIntWithin_of_not_infinite hwithin
    have hrow : b.double id (some "count") (.int h.count) .cumulative =
        b.row id (SeriesTable.cumulative (some "count") (.ofInt h.count)) := by
      rw [double_eq, Value.Number.isOversized, hwithin]
      rfl
    have hpercentiles : h.percentiles.mapM (fun p => do
          b.scaled id (some (← percentileSuffix p.fraction)) timed p.value) =
        (h.percentiles.map (SeriesTable.percentile timed)).mapM (b.row id) := by
      rw [List.mapM_map]
      exact congrArg (List.mapM · h.percentiles) (funext fun p => b.percentile_eq id timed p)
    simp only [hcount, ok_bind, hrow, hpercentiles, distribution_eq]
    show _ = List.mapM (b.row id) (_ :: _ :: _ :: _)
    simp only [List.mapM_cons, scaled_eq, bind_assoc, pure_bind]

theorem single_eq (id : MeterId) (n : Value.Number) (kind : MetricKind) :
    (do return [← b.double id none n kind]) =
      [(⟨none, .double n.nearest, kind, n.isOversized⟩ : SeriesEntry)].mapM (b.row id) := by
  simp only [List.mapM_cons, List.mapM_nil, double_eq, pure_bind]

/-- **Series of a snapshot.** They are made by going through its table; a value that is not sent
makes none. -/
theorem series_eq (snapshot : Snapshot) :
    b.series snapshot =
      (do (← SeriesTable.ofReading snapshot.reading).mapM (b.row snapshot.id)) := by
  obtain ⟨id, reading⟩ := snapshot
  cases reading with
  | timer h => exact b.ofHistogram_eq id true h
  | summary h => exact b.ofHistogram_eq id false h
  | foreign kind => rfl
  | longTaskTimer active seconds =>
    have hrow : b.row id ⟨some "activeTasks", .int64 active, .gauge, false⟩ = _ :=
      b.row_of_typed rfl rfl
    show b.ofLongTasks id active seconds = List.mapM (b.row id) (_ :: _ :: [])
    simp only [ofLongTasks, List.mapM_cons, List.mapM_nil, scaled_eq, hrow, bind_assoc, pure_bind]
    rfl
  | functionTimer count totalSeconds =>
    have hrow := b.functionTimer_eq id count totalSeconds
    show (do return [← b.ofFunctionTimer id count totalSeconds]) = List.mapM (b.row id) (_ :: [])
    simp only [List.mapM_cons, List.mapM_nil, hrow, pure_bind]
  | custom measurements =>
    show measurements.mapM (fun m => b.double id (some m.statistic.suffix) m.value) =
      (measurements.map fun m =>
        SeriesTable.number (some m.statistic.suffix) false m.value).mapM (b.row id)
    rw [List.mapM_map]
    exact congrArg (List.mapM · measurements) (funext fun m => b.double_eq id _ m.value .gauge)
  | gauge value => exact b.single_eq id (.float value) .gauge
  | timeGauge seconds => exact b.single_eq id (.float (toBaseUnit seconds)) .gauge
  | counter count => exact b.single_eq id (.float count) .cumulative
  | functionCounter count => exact b.single_eq id (.float count) .cumulative

theorem carryOut_cons (series : PlannedSeries) (later : Agenda) (st : BuildState σ) :
    b.carryOut ⟨series :: later.series, later.fault⟩ st =
      match b.record series st with
      | (.error fault, after) => (.error fault, after)
      | (.ok r, after) =>
        ((b.carryOut later after).1.map (r :: ·), (b.carryOut later after).2) := by
  rw [carryOut, records]
  cases b.record series st with
  | mk outcome after =>
    cases outcome with
    | error fault => rfl
    | ok r =>
      simp only [carryOut]
      cases (b.records later.series after).1 with
      | error fault => rfl
      | ok rs => cases later.fault <;> rfl

theorem mapM_row_run (id : MeterId) (table : List SeriesEntry) (st : BuildState σ) :
    let made : Except Fault (List (Option TimeSeries)) × BuildState σ := table.mapM (b.row id) st
    (made.1.map (·.filterMap fun r => r), made.2) = b.carryOut (b.agendaOf id table) st := by
  induction table generalizing st with
  | nil => rfl
  | cons entry rest ih =>
    rw [List.mapM_cons, agendaOf]
    simp only [bind_run, row]
    cases b.planRow id entry with
    | error fault => rfl
    | ok planned =>
      cases planned with
      | none =>
        dsimp only
        rw [Option.toList_none, List.nil_append, ← ih st]
        cases (List.mapM (b.row id) rest : Building σ _) st with
        | mk outcome after => cases outcome <;> rfl
      | some series =>
        dsimp only
        rw [Option.toList_some, List.singleton_append, carryOut_cons]
        cases b.record series st with
        | mk outcome after =>
          cases outcome with
          | error fault => rfl
          | ok r =>
            dsimp only [Except.map]
            rw [← ih after]
            dsimp only
            cases (List.mapM (b.row id) rest : Building σ _) after with
            | mk outcome last => cases outcome <;> rfl

/-- **Builds.** The records of a snapshot are those of its agenda. -/
theorem build_eq (snapshot : Snapshot) (st : BuildState σ) :
    b.build snapshot st = b.carryOut (b.agenda snapshot) st := by
  rw [build, series_eq, agenda]
  cases SeriesTable.ofReading snapshot.reading with
  | error fault => rfl
  | ok table => exact b.mapM_row_run snapshot.id table st

end SeriesBuilder
end Telemetry

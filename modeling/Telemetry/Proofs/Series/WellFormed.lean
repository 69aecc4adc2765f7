import Telemetry.Proofs.Series.Building

/-!
The form of a record, and where its kind comes from.

Proved here:

* `SeriesTable.kind_eq`: of all series only counters and the counts of timers and summaries
  accumulate;
* `SeriesValue.hasType_typed?`: a value that is sent has exactly the field of its type;
* `records_looked`: each record has the kind that was in effect when its turn came;
* `build_wellFormed`: so every record of a snapshot is well formed.
-/

namespace Telemetry

variable {σ : Type}

/-! ## Series that accumulate -/

/-- Whether the series of a suffix accumulates: counters do, and so do the counts of timers and
summaries. -/
def Reading.accumulates : Reading → Option String → Bool
  | .counter _, _ | .functionCounter _, _ => true
  | .timer _, suffix | .summary _, suffix => suffix = some "count"
  | _, _ => false

namespace SeriesTable

theorem suffix_percentile_ne_count (timed : Bool) (p : PercentileValue) :
    (percentile timed p).suffix ≠ some "count" := by
  intro h
  have hlist := congrArg String.toList (Option.some.inj h)
  rw [String.toList_append] at hlist
  exact absurd (List.cons.inj hlist).1 (by decide)

/-- Of the series of a histogram only the count accumulates. -/
theorem kind_ofHistogram {timed : Bool} {h : Histogram} {table : List SeriesEntry}
    (htable : ofHistogram timed h = .ok table) {entry : SeriesEntry} (hmem : entry ∈ table) :
    entry.kind = if entry.suffix = some "count" then .cumulative else .gauge := by
  obtain ⟨d, count, -, -, rfl⟩ := ofHistogram_spec htable
  simp only [List.mem_cons, List.mem_map] at hmem
  rcases hmem with rfl | rfl | rfl | ⟨p, -, rfl⟩
  · rfl
  · rfl
  · rfl
  · rw [if_neg (suffix_percentile_ne_count timed p)]
    rfl

/-- **Kinds asked for.** A series asks to be cumulative exactly if it accumulates. -/
theorem kind_eq {reading : Reading} {table : List SeriesEntry}
    (htable : ofReading reading = .ok table) {entry : SeriesEntry} (hmem : entry ∈ table) :
    entry.kind = if reading.accumulates entry.suffix then .cumulative else .gauge := by
  cases reading with
  | timer h =>
    have htable : ofHistogram true h = .ok table := htable
    simpa [Reading.accumulates] using kind_ofHistogram htable hmem
  | summary h =>
    have htable : ofHistogram false h = .ok table := htable
    simpa [Reading.accumulates] using kind_ofHistogram htable hmem
  | longTaskTimer active seconds =>
    cases htable
    simp only [List.mem_cons, List.not_mem_nil, or_false] at hmem
    rcases hmem with rfl | rfl <;> rfl
  | custom measurements =>
    cases htable
    obtain ⟨m, -, rfl⟩ := List.mem_map.mp hmem
    rfl
  | foreign kind => cases htable
  | _ =>
    cases htable
    cases List.mem_singleton.mp hmem
    rfl

end SeriesTable

/-! ## Values and intervals -/

/-- Exactly the field of a type is set. -/
structure TypedValue.HasType (v : TypedValue) (type : ValueType) : Prop where
  double : v.double.isSome = true ↔ type = .double
  int64 : v.int64.isSome = true ↔ type = .int64
  distribution : v.distribution.isSome = true ↔ type = .distribution

theorem TypedValue.hasType_ofDistribution (d : Distribution) :
    (ofDistribution d).HasType .distribution := by
  constructor <;> simp [ofDistribution]

theorem SeriesValue.hasType_typed? {value : SeriesValue} {typed : TypedValue}
    (h : value.typed? = some typed) : typed.HasType value.type := by
  unfold typed? at h
  split at h
  · cases value with
    | double x =>
      cases h
      constructor <;> simp [TypedValue.ofDouble, type]
    | int64 n =>
      cases h
      constructor <;> simp [TypedValue.ofInt64, type]
    | distribution d =>
      cases h
      exact TypedValue.hasType_ofDistribution d
    | pointMass count mean =>
      obtain ⟨d, -, rfl⟩ := Option.map_eq_some_iff.mp h
      exact TypedValue.hasType_ofDistribution d
  · cases h

/-- The interval of a point of a kind: it ends with the window, and has a start only if points of
the kind cover time, and then that of the window. -/
structure TimeInterval.Fits (i : TimeInterval) (window : BatchWindow) (kind : MetricKind) :
    Prop where
  stop_eq : i.stop = window.stop
  start_iff : i.start.isSome = true ↔ kind = .delta ∨ kind = .cumulative
  start_eq : ∀ start, i.start = some start → start = window.start

theorem TimeInterval.fits_ofWindow (window : BatchWindow) (kind : MetricKind) :
    (ofWindow window kind).Fits window kind := by
  cases kind <;> constructor <;> simp [ofWindow, MetricKind.requiresStart]

namespace SeriesBuilder

variable (b : SeriesBuilder σ)

/-! ## Lookups -/

/-- The state in which the series at a position is looked up. -/
def stateBefore (series : List PlannedSeries) (st : BuildState σ) (i : Nat) : BuildState σ :=
  (b.records (series.take i) st).2

theorem stateBefore_succ {first : PlannedSeries} {rest : List PlannedSeries}
    {st after : BuildState σ} {r : TimeSeries} (h : b.record first st = (.ok r, after)) (i : Nat) :
    b.stateBefore (first :: rest) st (i + 1) = b.stateBefore rest after i := by
  rw [stateBefore, List.take_succ_cons, records, h]
  rfl

/-- **Kinds of records.** Each is the kind in effect when its series is looked up. -/
theorem records_looked {series : List PlannedSeries} {st : BuildState σ} {rs : List TimeSeries}
    (h : (b.records series st).1 = .ok rs) {i : Nat} {r : TimeSeries} (hr : rs[i]? = some r) :
    ∃ planned kind, series[i]? = some planned ∧
      b.kindInEffect planned.descriptor (b.stateBefore series st i) = .ok kind ∧
      r = b.finish kind planned := by
  induction series generalizing st rs i with
  | nil =>
    cases h
    cases hr
  | cons first rest ih =>
    rw [records] at h
    split at h
    · cases h
    · next built after hrecord =>
      obtain ⟨later, hlater, rfl⟩ := Fault.exists_of_map_eq_ok h
      cases i with
      | zero =>
        have hfirst : (b.record first st).1 = .ok built := by rw [hrecord]
        rw [b.record_eq] at hfirst
        obtain ⟨kind, hkind, rfl⟩ := Fault.exists_of_map_eq_ok hfirst
        exact ⟨first, kind, rfl, hkind, (Option.some.inj hr).symm⟩
      | succ i =>
        rw [b.stateBefore_succ hrecord]
        exact ih hlater hr

/-! ## Records -/

/-- The kind that the series of a suffix asks for. -/
def askedKind (config : ExportConfig) (reading : Reading) (suffix : Option String) : MetricKind :=
  if config.cumulativeEnabled.truthy ∧ reading.accumulates suffix then .cumulative else .gauge

/-- A record of a snapshot whose series is looked up in a state. -/
structure WellFormed (snapshot : Snapshot) (st : BuildState σ) (r : TimeSeries) : Prop where
  interval : r.point.interval.Fits b.window r.kind
  value : r.point.value.HasType r.valueType
  kind : ∃ name suffix, b.naming.name snapshot.id = .ok name ∧
    r.metricType = metricType b.config name suffix ∧
    b.kindInEffect
      { type := r.metricType
        kind := askedKind b.config snapshot.reading suffix
        valueType := r.valueType
        description := snapshot.id.description.getD "" } st = .ok r.kind

theorem requestedKind_eq {reading : Reading} {table : List SeriesEntry}
    (htable : SeriesTable.ofReading reading = .ok table) {entry : SeriesEntry}
    (hmem : entry ∈ table) (config : ExportConfig) :
    requestedKind config entry.kind = askedKind config reading entry.suffix := by
  rw [requestedKind, askedKind, SeriesTable.kind_eq htable hmem]
  cases config.cumulativeEnabled.truthy <;> simp

/-- A planned series that was looked up gives a well-formed record. -/
theorem wellFormed_finish {snapshot : Snapshot} {series : List PlannedSeries}
    (hplan : b.plan snapshot = .ok series) {planned : PlannedSeries} (hmem : planned ∈ series)
    {st : BuildState σ} {kind : MetricKind}
    (hkind : b.kindInEffect planned.descriptor st = .ok kind) :
    b.WellFormed snapshot st (b.finish kind planned) := by
  obtain ⟨table, name, entry, htable, hname, hentry, hplanned⟩ :=
    b.exists_entry_of_mem_plan hplan hmem
  obtain ⟨typed, htyped, rfl⟩ := Option.map_eq_some_iff.mp hplanned
  rw [requestedKind_eq htable hentry] at hkind
  exact ⟨TimeInterval.fits_ofWindow b.window kind, SeriesValue.hasType_typed? htyped,
    name, entry.suffix, hname, rfl, hkind⟩

/-- **Well-formed records.** Every record that is built of a snapshot has the interval of its
kind and the value of its type, and its kind is what the lookup for its metric type returned. -/
theorem build_wellFormed {snapshot : Snapshot} {st : BuildState σ} {rs : List TimeSeries}
    (h : (b.build snapshot st).1 = .ok rs) :
    ∃ series, b.plan snapshot = .ok series ∧ rs.length = series.length ∧
      ∀ i r, rs[i]? = some r → b.WellFormed snapshot (b.stateBefore series st i) r := by
  obtain ⟨series, hplan, hfinished⟩ := b.build_finished h
  refine ⟨series, hplan, hfinished.length_eq.symm, fun i r hr => ?_⟩
  rw [b.build_of_plan hplan] at h
  obtain ⟨planned, kind, hplanned, hkind, rfl⟩ := b.records_looked h hr
  exact b.wellFormed_finish hplan (List.mem_of_getElem? hplanned) hkind

def laps : Snapshot := ⟨⟨"laps", [], none, .timer⟩, .timer .empty⟩

/-- A service that has counts of laps for each step. -/
def stepwiseLaps : BuildState MemoryBackend :=
  ⟨some .empty, { existing := OrderedMap.empty.insert "t/laps/count" .delta }, []⟩

theorem build_wellFormed_stepwise :
    ∃ rs, (plainBuilder.build laps stepwiseLaps).1 = .ok rs ∧
      rs.map (·.kind) = [.gauge, .gauge, .delta] ∧
      ∃ series, plainBuilder.plan laps = .ok series ∧ rs.length = series.length ∧
        ∀ i r, rs[i]? = some r →
          plainBuilder.WellFormed laps (plainBuilder.stateBefore series stepwiseLaps i) r := by
  have hkinds : ((plainBuilder.build laps stepwiseLaps).1.toOption.map fun rs =>
      rs.map (·.kind)) = some [.gauge, .gauge, .delta] := by decide +kernel
  cases hrs : (plainBuilder.build laps stepwiseLaps).1 with
  | error fault =>
    rw [hrs] at hkinds
    cases hkinds
  | ok rs =>
    rw [hrs] at hkinds
    exact ⟨rs, rfl, Option.some.inj hkinds, build_wellFormed plainBuilder hrs⟩

end SeriesBuilder
end Telemetry

import Telemetry.Proofs.Series.Building
import Telemetry.Proofs.Series.Distribution

/-!
The rows that a snapshot stands for, and which of them become records.

Proved here:

* `SeriesTable.exists_rows`: a table that is computed shows the rows of its reading;
* `plan_rows`: the planned series are the rows whose checked numbers are finite;
* `ensure_noting`, `records_noting`: noting the calls of a service changes no answer, and planned
  series attempt no creations but their own;
* `build_finiteRows`: so a number that is not finite costs its own row and nothing else, not even
  a descriptor.
-/

namespace Telemetry

variable {σ : Type}

/-! ## Rows -/

/-- A series that a snapshot stands for.

- `suffix`: what its metric type has after the name of the meter.
- `value`: the value of its point.
- `checked`: the numbers that have to be finite for it to be sent. -/
structure SeriesRow where
  suffix : Option String
  value : TypedValue
  checked : List Binary64

namespace SeriesRow

def isFinite (row : SeriesRow) : Bool := row.checked.all (·.isFinite)

def number (suffix : Option String) (x : Binary64) : SeriesRow := ⟨suffix, .ofDouble x, [x]⟩

/-- The value of a row that is sent. -/
def sent? (row : SeriesRow) : Option TypedValue := if row.isFinite then some row.value else none

end SeriesRow

/-- A number as a double, in milliseconds if it is a duration in seconds. -/
def Value.Number.exported (timed : Bool) (n : Number) : Binary64 :=
  if timed then n.nearest * 1000 else n.nearest

/-- The rows of a histogram with its distribution. -/
def Histogram.rows (h : Histogram) (timed : Bool) (d : Distribution) : List SeriesRow :=
  ⟨none, .ofDistribution d, [d.mean]⟩ ::
    .number (some "max") (h.max.exported timed) ::
    .number (some "count") (.ofInt h.count) ::
    h.percentiles.map fun p =>
      .number (some ("p" ++ Decimal.shortFixed 4 (p.fraction.times 100).nearest))
        (p.value.exported timed)

/-- The mean of a histogram in milliseconds if it holds durations, zero without observations. -/
def Histogram.exportedMean (h : Histogram) (timed : Bool) : Binary64 :=
  let mean := if h.count = 0 then .zero else h.total / .ofInt h.count
  if timed then mean * 1000 else mean

/-- The distribution of a whole number of observations above the bound zero. -/
def Distribution.aboveZero (count mean : Binary64) : Distribution :=
  ⟨count.rank.tdiv unitsPerOne, mean, [.zero], [0, count.rank.tdiv unitsPerOne]⟩

/-- The rows of a reading in their order, with times in milliseconds. -/
inductive Reading.Rows : Reading → List SeriesRow → Prop
  | gauge (x : Binary64) : Rows (.gauge x) [.number none x]
  | timeGauge (x : Binary64) : Rows (.timeGauge x) [.number none (x * 1000)]
  | counter (x : Binary64) : Rows (.counter x) [.number none x]
  | functionCounter (x : Binary64) : Rows (.functionCounter x) [.number none x]
  | timer {h : Histogram} {d : Distribution} (hd : Distribution.ofHistogram h true = .ok d)
    (hmean : d.mean = h.exportedMean true) : Rows (.timer h) (h.rows true d)
  | summary {h : Histogram} {d : Distribution} (hd : Distribution.ofHistogram h false = .ok d)
    (hmean : d.mean = h.exportedMean false) : Rows (.summary h) (h.rows false d)
  | longTaskTimer (active : Int) (seconds : Value.Number) :
    Rows (.longTaskTimer active seconds)
      [⟨some "activeTasks", .ofInt64 active, []⟩,
        .number (some "duration") (seconds.nearest * 1000)]
  | functionTimer (count total : Binary64) {mean : Binary64}
    (hmean : mean = functionTimerMean count total * 1000) :
    Rows (.functionTimer count total)
      [⟨none, .ofDistribution (.aboveZero count mean), [count, mean]⟩]
  | custom (measurements : List Measurement) :
    Rows (.custom measurements)
      (measurements.map fun m => .number (some m.statistic.suffix) m.value.nearest)

theorem Binary64.toInteger_eq_tdiv {x : Binary64} (h : x.isFinite = true) :
    x.toInteger = .ok (x.rank.tdiv unitsPerOne) := by
  cases x with
  | nan => cases h
  | infinite s => cases h
  | finite s m => cases s <;> simp [toInteger, truncate, rank]

/-- The number nearest to an integer within the finite range is that of any integer. -/
theorem Binary64.eq_ofInt_of_ofIntWithin {n : Int} {x : Binary64} (h : ofIntWithin n = .ok x) :
    x = ofInt n := by
  rw [ofIntWithin] at h
  split at h
  · cases h
  · exact (Except.ok.inj h).symm

/-! ## Tables -/

/-- What an entry of a table shows: its suffix, and its value if that is sent. -/
def SeriesEntry.shown (entry : SeriesEntry) : Option String × Option TypedValue :=
  (entry.suffix, entry.value.typed?)

def SeriesRow.shown (row : SeriesRow) : Option String × Option TypedValue :=
  (row.suffix, row.sent?)

namespace SeriesTable

theorem typed?_double (x : Binary64) (suffix : Option String) :
    (SeriesValue.double x).typed? = (SeriesRow.number suffix x).sent? := by
  cases hx : x.isFinite <;>
    simp [SeriesValue.typed?, SeriesValue.isFinite, SeriesRow.sent?, SeriesRow.isFinite,
      SeriesRow.number, hx]

theorem shown_gauge (suffix : Option String) (x : Binary64) :
    (gauge suffix x).shown = (SeriesRow.number suffix x).shown :=
  congrArg (Prod.mk suffix) (typed?_double x suffix)

theorem shown_cumulative (suffix : Option String) (x : Binary64) :
    (cumulative suffix x).shown = (SeriesRow.number suffix x).shown :=
  congrArg (Prod.mk suffix) (typed?_double x suffix)

theorem typed?_pointMass (count mean : Binary64) :
    (SeriesValue.pointMass count mean).typed? =
      (SeriesRow.mk none (.ofDistribution (.aboveZero count mean)) [count, mean]).sent? := by
  cases hcount : count.isFinite with
  | false => simp [SeriesValue.typed?, SeriesValue.isFinite, SeriesRow.sent?, SeriesRow.isFinite,
      hcount]
  | true =>
    simp [SeriesValue.typed?, SeriesValue.isFinite, SeriesRow.sent?, SeriesRow.isFinite, hcount,
      Distribution.pointMass, Binary64.toInteger_eq_tdiv hcount, Except.map, Except.toOption,
      Distribution.aboveZero]

theorem shown_number (suffix : Option String) (timed : Bool) (n : Value.Number) :
    (number suffix timed n).shown = (SeriesRow.number suffix (n.exported timed)).shown :=
  congrArg (Prod.mk suffix) (typed?_double (n.exported timed) suffix)

/-- The mean of a distribution is that of its histogram in the unit of export. -/
theorem mean_ofHistogram {h : Histogram} {timed : Bool} {d : Distribution}
    (hd : Distribution.ofHistogram h timed = .ok d) : d.mean = h.exportedMean timed := by
  obtain ⟨counts, mean, -, hmean, hscaled, -⟩ := Distribution.ofHistogram_inv hd
  rw [hscaled, Histogram.exportedMean]
  rw [Histogram.mean] at hmean
  split at hmean
  · next h0 =>
    rw [if_pos h0, ← Except.ok.inj hmean]
    rfl
  · next h0 =>
    obtain ⟨count, hcount, rfl⟩ := Fault.exists_of_map_eq_ok hmean
    rw [if_neg h0, Binary64.eq_ofInt_of_ofIntWithin hcount]
    rfl

theorem shown_ofHistogram {timed : Bool} {h : Histogram} {table : List SeriesEntry}
    (htable : ofHistogram timed h = .ok table) :
    ∃ d, Distribution.ofHistogram h timed = .ok d ∧ d.mean = h.exportedMean timed ∧
      table.map (·.shown) = (h.rows timed d).map (·.shown) := by
  obtain ⟨d, count, hd, hcount, rfl⟩ := ofHistogram_spec htable
  obtain rfl := Binary64.eq_ofInt_of_ofIntWithin hcount
  have hdistribution : (SeriesValue.distribution d).typed? =
      (SeriesRow.mk none (.ofDistribution d) [d.mean]).sent? := by
    cases hmean : d.mean.isFinite <;>
      simp [SeriesValue.typed?, SeriesValue.isFinite, SeriesRow.sent?, SeriesRow.isFinite, hmean]
  refine ⟨d, hd, mean_ofHistogram hd, ?_⟩
  simp only [Histogram.rows, List.map_cons, List.map_map, shown_number, shown_cumulative]
  refine congrArg₂ List.cons (congrArg (Prod.mk none) hdistribution) ?_
  exact congrArg _ (congrArg _ (List.map_congr_left fun p _ => shown_number _ timed p.value))

/-- **Tables.** A table that is computed shows the rows of its reading. -/
theorem exists_rows {reading : Reading} {table : List SeriesEntry}
    (htable : ofReading reading = .ok table) :
    ∃ rows, reading.Rows rows ∧ table.map (·.shown) = rows.map (·.shown) := by
  cases reading with
  | gauge x =>
    cases htable
    exact ⟨_, .gauge x, congrArg (· :: []) (shown_gauge _ _)⟩
  | timeGauge x =>
    cases htable
    exact ⟨_, .timeGauge x, congrArg (· :: []) (shown_gauge _ _)⟩
  | counter x =>
    cases htable
    exact ⟨_, .counter x, congrArg (· :: []) (shown_cumulative _ _)⟩
  | functionCounter x =>
    cases htable
    exact ⟨_, .functionCounter x, congrArg (· :: []) (shown_cumulative _ _)⟩
  | timer h =>
    obtain ⟨d, hd, hmean, hshown⟩ := @shown_ofHistogram true h _ htable
    exact ⟨_, .timer hd hmean, hshown⟩
  | summary h =>
    obtain ⟨d, hd, hmean, hshown⟩ := @shown_ofHistogram false h _ htable
    exact ⟨_, .summary hd hmean, hshown⟩
  | longTaskTimer active seconds =>
    cases htable
    exact ⟨_, .longTaskTimer active seconds,
      congrArg (_ :: · :: []) (shown_number _ true seconds)⟩
  | functionTimer count total =>
    cases htable
    exact ⟨_, .functionTimer count total rfl,
      congrArg (fun shown => [(none, shown)]) (typed?_pointMass _ _)⟩
  | custom measurements =>
    cases htable
    refine ⟨_, .custom measurements, ?_⟩
    rw [List.map_map, List.map_map]
    exact List.map_congr_left fun m _ => shown_number _ false m.value
  | foreign kind => cases htable

end SeriesTable

namespace DescriptorCache

/-! ## Calls that are noted -/

variable (client : Client σ) (scope : DescriptorScope) (cache : DescriptorCache) (s : σ)
  (calls : List ServiceCall)

/-- A step through a client that notes its calls. -/
def notedStep {α : Type} (step : CacheStep σ α) (calls : List ServiceCall) :
    CacheStep (σ × List ServiceCall) α :=
  ⟨step.outcome, step.cache, (step.backend, calls), step.notices⟩

theorem populate_noting :
    ∃ made, populate client.noting scope cache (s, calls) =
        notedStep (populate client scope cache s) (calls ++ made) ∧
      made.filterMap (·.attempt?) = [] := by
  rw [populate, populate]
  split
  · exact ⟨[], by rw [List.append_nil]; rfl, rfl⟩
  · cases hlist : client.list scope.project scope.filter s with
    | mk outcome s' =>
      have hnoted : client.noting.list scope.project scope.filter (s, calls) =
          (outcome, s', calls ++ [.listing outcome]) := by
        simp [Client.noting, hlist]
      refine ⟨[.listing outcome], ?_, rfl⟩
      rw [hnoted]
      cases outcome with
      | error fault => rfl
      | ok listing =>
        dsimp only
        split <;> rfl

/-- **A lookup whose calls are noted** does what it does without notes, and attempts to create
no descriptor but its own. -/
theorem ensure_noting (d : MetricDescriptor) :
    ∃ made, ensure client.noting scope d cache (s, calls) =
        notedStep (ensure client scope d cache s) (calls ++ made) ∧
      ∀ e ∈ made.filterMap (·.attempt?), e = d := by
  obtain ⟨looked, hpopulate, hlooked⟩ := populate_noting client scope cache s calls
  rw [ensure, ensure, hpopulate, CacheStep.andThen, CacheStep.andThen]
  cases hfilling : populate client scope cache s with
  | mk outcome filled s' notices =>
    cases outcome with
    | error fault => exact ⟨looked, rfl, by simp [hlooked]⟩
    | ok _ =>
      obtain ⟨kind, after, s'', notices', created, hsettling, hlook, hlook'⟩ :=
        lookUp_spec client scope d filled s' (calls ++ looked)
      refine ⟨looked ++ created, ?_, fun e he => ?_⟩
      · simp only [notedStep, hlook, hlook', List.append_assoc]
      · rw [List.filterMap_append, hlooked, List.nil_append, hsettling.attempts_eq] at he
        split at he
        · exact List.mem_singleton.mp he
        · cases he

end DescriptorCache

namespace SeriesBuilder

variable (b : SeriesBuilder σ)

/-- The builder with notes of every listing and creation. -/
def noting : SeriesBuilder (σ × List ServiceCall) := { b with client := b.client.noting }

/-- A state of building with the calls so far. -/
def noted (st : BuildState σ) (calls : List ServiceCall) : BuildState (σ × List ServiceCall) :=
  ⟨st.cache, (st.backend, calls), st.notices⟩

theorem record_noting (series : PlannedSeries) (st : BuildState σ) (calls : List ServiceCall) :
    ∃ made, b.noting.record series (noted st calls) =
        ((b.record series st).1, noted (b.record series st).2 (calls ++ made)) ∧
      ∀ d ∈ made.filterMap (·.attempt?), d = series.descriptor := by
  obtain ⟨cache, s, notices⟩ := st
  cases cache with
  | none => exact ⟨[], by rw [List.append_nil]; rfl, nofun⟩
  | some cache =>
    obtain ⟨made, hensure, hmade⟩ := DescriptorCache.ensure_noting b.client (scope b.config) cache
      s calls series.descriptor
    refine ⟨made, ?_, hmade⟩
    simp only [record, ensure, noted, noting, hensure]
    rfl

theorem records_noting (series : List PlannedSeries) (st : BuildState σ)
    (calls : List ServiceCall) :
    ∃ made, b.noting.records series (noted st calls) =
        ((b.records series st).1, noted (b.records series st).2 (calls ++ made)) ∧
      ∀ d ∈ made.filterMap (·.attempt?), d ∈ series.map (·.descriptor) := by
  induction series generalizing st calls with
  | nil => exact ⟨[], by rw [List.append_nil]; rfl, nofun⟩
  | cons first rest ih =>
    obtain ⟨made, hrecord, hmade⟩ := b.record_noting first st calls
    rw [records, records, hrecord]
    cases hfirst : b.record first st with
    | mk outcome after =>
      cases outcome with
      | error fault =>
        exact ⟨made, rfl, fun d hd => by simp [hmade d hd]⟩
      | ok r =>
        obtain ⟨later, hlater, hattempts⟩ := ih after (calls ++ made)
        refine ⟨made ++ later, by dsimp only; rw [hlater, List.append_assoc], fun d hd => ?_⟩
        rw [List.filterMap_append, List.mem_append] at hd
        rw [List.map_cons, List.mem_cons]
        exact hd.imp (hmade d) (hattempts d)

theorem agendaOf_noting (id : MeterId) (table : List SeriesEntry) :
    b.noting.agendaOf id table = b.agendaOf id table := by
  induction table with
  | nil => rfl
  | cons entry rest ih =>
    rw [agendaOf, agendaOf, ih]
    rfl

theorem plan_noting (snapshot : Snapshot) : b.noting.plan snapshot = b.plan snapshot := by
  simp only [plan, agenda, agendaOf_noting]

/-! ## Records of the rows -/

/-- What a record takes from its row. -/
def content (config : ExportConfig) (name : String) (row : SeriesRow) : String × TypedValue :=
  (metricType config name row.suffix, row.value)

/-- **Plans.** The planned series are the rows that are sent. -/
theorem plan_rows {snapshot : Snapshot} {series : List PlannedSeries}
    (hplan : b.plan snapshot = .ok series) {name : String}
    (hname : b.naming.name snapshot.id = .ok name) :
    ∃ rows, snapshot.reading.Rows rows ∧
      series.map (fun planned => (planned.descriptor.type, planned.value)) =
        (rows.filter (·.isFinite)).map (content b.config name) := by
  obtain ⟨table, htable, -, hseries⟩ := b.plan_spec hplan
  obtain ⟨rows, hrows, hshown⟩ := SeriesTable.exists_rows htable
  have hfinite : series = table.filterMap (b.planEntry snapshot.id name) := by
    rcases hseries with ⟨rfl, rfl⟩ | ⟨name', hname', rfl⟩
    · rfl
    · rw [Except.ok.inj (hname.symm.trans hname')]
  let sent (shown : Option String × Option TypedValue) : Option (String × TypedValue) :=
    shown.2.map fun value => (metricType b.config name shown.1, value)
  have hentries : series.map (fun planned => (planned.descriptor.type, planned.value)) =
      (table.map (·.shown)).filterMap sent := by
    rw [hfinite, List.map_filterMap, List.filterMap_map]
    refine List.filterMap_congr fun entry _ => ?_
    simp [planEntry, sent, SeriesEntry.shown, Function.comp_def]
  have hsent : (rows.filter (·.isFinite)).map (content b.config name) =
      (rows.map (·.shown)).filterMap sent := by
    rw [← List.filterMap_eq_filter, List.map_filterMap, List.filterMap_map]
    refine List.filterMap_congr fun row _ => ?_
    cases hrow : row.isFinite <;>
      simp [sent, SeriesRow.shown, SeriesRow.sent?, content, Option.guard, hrow]
  exact ⟨rows, hrows, by rw [hentries, hsent, hshown]⟩

theorem content_finished {series : List PlannedSeries} {rs : List TimeSeries}
    (h : List.Forall₂ b.Finished series rs) :
    rs.map (fun r => (r.metricType, r.point.value)) =
      series.map fun planned => (planned.descriptor.type, planned.value) := by
  induction h with
  | nil => rfl
  | cons hfirst _ ih =>
    obtain ⟨kind, rfl⟩ := hfirst
    exact congrArg _ ih

/-- **Numbers that are not finite** cost their own rows only. The records of a snapshot that is
built are the rows of its reading whose checked numbers are finite, in their order, with their
metric types and values; and of all creations that building attempts, each is of the type of a
record. -/
theorem build_finiteRows {snapshot : Snapshot} {name : String}
    (hname : b.naming.name snapshot.id = .ok name) {st after : BuildState σ}
    {rs : List TimeSeries} (h : b.build snapshot st = (.ok rs, after)) :
    (∃ rows, snapshot.reading.Rows rows ∧
      rs.map (fun r => (r.metricType, r.point.value)) =
        (rows.filter (·.isFinite)).map (content b.config name)) ∧
    ∃ calls, b.noting.build snapshot (noted st []) = (.ok rs, noted after calls) ∧
      ∀ d ∈ calls.filterMap (·.attempt?), ∃ r ∈ rs, r.metricType = d.type := by
  obtain ⟨series, hplan, hfinished⟩ := b.build_finished (congrArg Prod.fst h)
  obtain ⟨rows, hrows, hcontent⟩ := b.plan_rows hplan hname
  refine ⟨⟨rows, hrows, (b.content_finished hfinished).trans hcontent⟩, ?_⟩
  obtain ⟨calls, hrecords, hattempts⟩ := b.records_noting series st []
  have hplan' : b.noting.plan snapshot = .ok series := (b.plan_noting snapshot).trans hplan
  rw [b.build_of_plan hplan] at h
  refine ⟨calls, ?_, fun d hd => ?_⟩
  · rw [b.noting.build_of_plan hplan', hrecords, h, List.nil_append]
  · obtain ⟨planned, hmem, rfl⟩ := List.mem_map.mp (hattempts d hd)
    obtain ⟨r, hr, kind, rfl⟩ := b.exists_record_of_mem hfinished hmem
    exact ⟨_, hr, rfl⟩

/-- Two observations in seconds, whose maximum is infinite and whose median is unknown. -/
def patchyLaps : Snapshot :=
  ⟨⟨"laps", [], none, .timer⟩, .timer
    ⟨2, 3, .float (.infinite false), [⟨.float (1 / 2), .float .nan⟩, ⟨.float 1, .float 2⟩], [],
      rfl⟩⟩

theorem build_finiteRows_patchy :
    ∃ rs after, plainBuilder.build patchyLaps ⟨some .empty, {}, []⟩ = (.ok rs, after) ∧
      rs.map (fun r => (r.metricType, r.point.value)) =
        [("t/laps", .ofDistribution ⟨2, 1500, [.zero], [0, 2]⟩), ("t/laps/count", .ofDouble 2),
          ("t/laps/p100", .ofDouble 2000)] ∧
      (∃ rows, patchyLaps.reading.Rows rows ∧ rs.map (fun r => (r.metricType, r.point.value)) =
        (rows.filter (·.isFinite)).map (content plainBuilder.config "laps")) ∧
      ∃ calls, plainBuilder.noting.build patchyLaps (noted ⟨some .empty, {}, []⟩ []) =
          (.ok rs, noted after calls) ∧
        ∀ d ∈ calls.filterMap (·.attempt?), ∃ r ∈ rs, r.metricType = d.type := by
  have hvalues : ((plainBuilder.build patchyLaps ⟨some .empty, {}, []⟩).1.toOption.map fun rs =>
      rs.map fun r => (r.metricType, r.point.value)) =
        some [("t/laps", .ofDistribution ⟨2, 1500, [.zero], [0, 2]⟩),
          ("t/laps/count", .ofDouble 2), ("t/laps/p100", .ofDouble 2000)] := by decide +kernel
  have hname : plainBuilder.naming.name patchyLaps.id = .ok "laps" := rfl
  cases hbuild : plainBuilder.build patchyLaps ⟨some .empty, {}, []⟩ with
  | mk outcome after =>
    rw [hbuild] at hvalues
    cases outcome with
    | error fault => cases hvalues
    | ok rs =>
      obtain ⟨hrows, hcalls⟩ := build_finiteRows plainBuilder hname hbuild
      exact ⟨rs, after, rfl, Option.some.inj hvalues, hrows, hcalls⟩

end SeriesBuilder
end Telemetry

import Telemetry.Proofs.Meter.RegistryRuns
import Telemetry.Proofs.Series.Building

/-!
The numbers of records in their wire form, and which of them can be without a finite value.

Proved here:

* `TimeSeries.doubles_toValue`: the numbers of a record are those of its resource and of its
  point;
* `SeriesValue.sendsFinite_typed?_iff`: of a value that is sent, only the bounds of a distribution
  are not checked;
* `sendsFinite_buildAll_iff`: so all numbers are finite exactly if all bounds that are sent are;
* `Reading.mem_sentBounds`: these are zero or bounds of the histogram in the unit of export;
* `sendsFinite_of_boundaries`: a registry whose boundaries stay finite in that unit sends no others;
* `boundaries_not_finite`: a boundary that does not is sent as it is.
-/

namespace Telemetry

variable {σ : Type}

/-! ## Numbers in a value -/

namespace Value

mutual

/-- The doubles in a value, in their order. -/
def doubles : Value → List Binary64
  | .float x => [x]
  | .list items => itemDoubles items
  | .map entries => entryDoubles entries
  | _ => []

/-- The doubles in the items of a list. -/
def itemDoubles : List Value → List Binary64
  | [] => []
  | v :: rest => doubles v ++ itemDoubles rest

/-- The doubles in the entries of a map. -/
def entryDoubles : List (Value × Value) → List Binary64
  | [] => []
  | e :: rest => pairDoubles e ++ entryDoubles rest

/-- The doubles in an entry of a map. -/
def pairDoubles : Value × Value → List Binary64
  | (k, v) => doubles k ++ doubles v

end

@[simp] theorem doubles_text (s : String) : (Value.text s).doubles = [] := by
  simp only [doubles]

@[simp] theorem doubles_float (x : Binary64) : (Value.float x).doubles = [x] := by
  simp only [doubles]

@[simp] theorem doubles_list (items : List Value) :
    (Value.list items).doubles = items.flatMap doubles := by
  rw [doubles]
  induction items with
  | nil => rfl
  | cons v rest ih => rw [itemDoubles, ih, List.flatMap_cons]

@[simp] theorem doubles_ofFields (fields : List (String × Value)) :
    (Value.ofFields fields).doubles = fields.flatMap fun f => f.2.doubles := by
  rw [ofFields, doubles]
  induction fields with
  | nil => rfl
  | cons f rest ih =>
    rw [List.map_cons, entryDoubles, ih, pairDoubles, doubles_text, List.nil_append,
      List.flatMap_cons]

/-- All numbers in a value are finite. -/
abbrev AllFinite (v : Value) : Prop := ∀ x ∈ v.doubles, x.isFinite = true

end Value

theorem Distribution.doubles_toValue {d : Distribution} {v : Value} (h : d.toValue = .ok v) :
    v.doubles = d.mean :: d.bounds := by
  obtain ⟨count, -, h⟩ := Fault.exists_of_bind_eq_ok h
  obtain ⟨counts, -, h⟩ := Fault.exists_of_bind_eq_ok h
  cases h
  simp [List.flatMap_map]

namespace TypedValue

theorem toValue_ofDouble (x : Binary64) :
    (ofDouble x).toValue = .ok (.ofFields [("doubleValue", .float x)]) := rfl

theorem toValue_ofInt64 (n : Int) : (ofInt64 n).toValue =
    (Decimal.shown n).map fun shown => .ofFields [("int64Value", .text shown)] := rfl

theorem toValue_ofDistribution (d : Distribution) : (ofDistribution d).toValue =
    d.toValue.map fun shown => .ofFields [("distributionValue", shown)] := rfl

theorem doubles_ofDouble {x : Binary64} {v : Value} (h : (ofDouble x).toValue = .ok v) :
    v.doubles = [x] := by
  rw [toValue_ofDouble] at h
  cases h
  simp

theorem doubles_ofInt64 {n : Int} {v : Value} (h : (ofInt64 n).toValue = .ok v) :
    v.doubles = [] := by
  rw [toValue_ofInt64] at h
  obtain ⟨shown, -, rfl⟩ := Fault.exists_of_map_eq_ok h
  simp

theorem doubles_ofDistribution {d : Distribution} {v : Value}
    (h : (ofDistribution d).toValue = .ok v) : v.doubles = d.mean :: d.bounds := by
  rw [toValue_ofDistribution] at h
  obtain ⟨shown, hshown, rfl⟩ := Fault.exists_of_map_eq_ok h
  simp [Distribution.doubles_toValue hshown]

/-- All numbers in the wire form of a value are finite, if it has one. -/
def SendsFinite (value : TypedValue) : Prop :=
  ∀ v, value.toValue = .ok v → v.AllFinite

end TypedValue

theorem TimeInterval.doubles_toValue {i : TimeInterval} {v : Value} (h : i.toValue = .ok v) :
    v.doubles = [] := by
  obtain ⟨stop, -, h⟩ := Fault.exists_of_bind_eq_ok h
  cases hstart : i.start with
  | none =>
    rw [hstart] at h
    cases h
    simp
  | some t =>
    rw [hstart] at h
    obtain ⟨start, -, h⟩ := Fault.exists_of_bind_eq_ok h
    cases h
    simp

/-- The numbers that a configuration puts into every record. -/
def Resource.doubles (r : Resource) : List Binary64 :=
  r.type.doubles ++ r.labels.entries.flatMap fun l => l.2.doubles

/-- **The numbers of a record** are those of its resource and those of its point. -/
theorem TimeSeries.doubles_toValue {r : TimeSeries} {v : Value} (h : r.toValue = .ok v) :
    ∃ value, r.point.value.toValue = .ok value ∧
      v.doubles = r.resource.doubles ++ value.doubles := by
  obtain ⟨interval, hinterval, h⟩ := Fault.exists_of_bind_eq_ok h
  obtain ⟨value, hvalue, h⟩ := Fault.exists_of_bind_eq_ok h
  cases h
  exact ⟨value, hvalue, by
    simp [TimeInterval.doubles_toValue hinterval, Resource.doubles, List.flatMap_map]⟩

/-! ## Numbers that are checked -/

/-- The bounds of a distribution on the wire; it has no wire form if a count is too long to be
shown. -/
def Distribution.wireBounds (d : Distribution) : List Binary64 :=
  if d.toValue.isOk then d.bounds else []

theorem Distribution.mem_bounds_of_wire {d : Distribution} {x : Binary64}
    (h : x ∈ d.wireBounds) : x ∈ d.bounds := by
  rw [wireBounds] at h
  split at h
  · exact h
  · cases h

/-- The bounds in a value that is sent. -/
def SeriesValue.bounds : SeriesValue → List Binary64
  | .distribution d => d.wireBounds
  | _ => []

/-- A value is sent exactly if its checked numbers are finite. -/
theorem SeriesValue.exists_typed?_iff (value : SeriesValue) :
    (∃ typed, value.typed? = some typed) ↔ value.isFinite = true := by
  unfold typed?
  split
  · next hfinite =>
    refine ⟨fun _ => hfinite, fun _ => ?_⟩
    cases value with
    | pointMass count mean =>
      obtain ⟨n, hn⟩ := Binary64.exists_toInteger (Bool.and_eq_true_iff.mp hfinite).1
      exact ⟨_, by simp only [Distribution.pointMass, hn]; rfl⟩
    | _ => exact ⟨_, rfl⟩
  · next hnot =>
    refine iff_of_false ?_ hnot
    rintro ⟨_, hnone⟩
    cases hnone

/-- A distribution with a finite mean sends only finite numbers if its bounds on the wire are. -/
theorem Distribution.sendsFinite_iff {d : Distribution} (hmean : d.mean.isFinite = true) :
    (TypedValue.ofDistribution d).SendsFinite ↔ ∀ x ∈ d.wireBounds, x.isFinite = true := by
  rw [wireBounds]
  cases hwire : d.toValue with
  | error fault =>
    have hnone : ∀ v, (TypedValue.ofDistribution d).toValue ≠ .ok v := by
      intro v h
      rw [TypedValue.toValue_ofDistribution, hwire] at h
      cases h
    exact ⟨fun _ => nofun, fun _ v h => absurd h (hnone v)⟩
  | ok shown =>
    have hsome : (TypedValue.ofDistribution d).toValue =
        .ok (.ofFields [("distributionValue", shown)]) := by
      rw [TypedValue.toValue_ofDistribution, hwire]
      rfl
    have hdoubles := TypedValue.doubles_ofDistribution hsome
    rw [TypedValue.SendsFinite, hsome]
    simp only [Except.ok.injEq, forall_eq', Value.AllFinite, hdoubles, List.forall_mem_cons, hmean,
      true_and]
    rfl

/-- **Checked numbers.** The numbers of a value that is sent are finite, but for the bounds of
a distribution. -/
theorem SeriesValue.sendsFinite_typed?_iff {value : SeriesValue} {typed : TypedValue}
    (h : value.typed? = some typed) :
    typed.SendsFinite ↔ ∀ x ∈ value.bounds, x.isFinite = true := by
  unfold typed? at h
  split at h
  · next hfinite =>
    cases value with
    | double x =>
      cases h
      refine ⟨fun _ => List.forall_mem_nil _, fun _ v hv y hy => ?_⟩
      rw [TypedValue.doubles_ofDouble hv, List.mem_singleton] at hy
      rwa [hy]
    | int64 n =>
      cases h
      refine ⟨fun _ => List.forall_mem_nil _, fun _ v hv y hy => ?_⟩
      rw [TypedValue.doubles_ofInt64 hv] at hy
      cases hy
    | distribution d =>
      cases h
      exact Distribution.sendsFinite_iff hfinite
    | pointMass count mean =>
      obtain ⟨hcount, hmean⟩ := Bool.and_eq_true_iff.mp hfinite
      obtain ⟨n, hn⟩ := Binary64.exists_toInteger hcount
      simp only [Distribution.pointMass, hn, Except.map, Except.toOption, Option.map_some,
        Option.some.injEq] at h
      subst h
      have hzero : ∀ x ∈ Distribution.wireBounds ⟨n, mean, [.zero], [0, n]⟩,
          x.isFinite = true := by
        intro x hx
        rw [List.mem_singleton.mp (Distribution.mem_bounds_of_wire hx)]
        rfl
      exact iff_of_true ((Distribution.sendsFinite_iff hmean).mpr hzero) (List.forall_mem_nil _)
  · cases h

/-- The bounds that are sent for a reading: those of its distribution on the wire, unless the mean
is not finite. -/
def Reading.sentBounds (reading : Reading) : List Binary64 :=
  match reading.histogram? with
  | none => []
  | some (timed, h) =>
    match Distribution.ofHistogram h timed with
    | .error _ => []
    | .ok d => if d.mean.isFinite then d.wireBounds else []

namespace SeriesTable

theorem bounds_ofHistogram {timed : Bool} {h : Histogram} {table : List SeriesEntry}
    (htable : ofHistogram timed h = .ok table) :
    ∃ d, Distribution.ofHistogram h timed = .ok d ∧
      ∀ x, (∃ entry ∈ table, entry.value.isFinite = true ∧ x ∈ entry.value.bounds) ↔
        d.mean.isFinite = true ∧ x ∈ d.wireBounds := by
  obtain ⟨d, count, hd, -, rfl⟩ := ofHistogram_spec htable
  refine ⟨d, hd, fun x => ?_⟩
  simp [SeriesValue.bounds, SeriesValue.isFinite, number, percentile, cumulative]

/-- The bounds in the entries that are sent are those of the reading. -/
theorem mem_bounds_iff {reading : Reading} {table : List SeriesEntry}
    (htable : ofReading reading = .ok table) (x : Binary64) :
    (∃ entry ∈ table, entry.value.isFinite = true ∧ x ∈ entry.value.bounds) ↔
      x ∈ reading.sentBounds := by
  cases hread : reading.histogram? with
  | some histogram =>
    obtain ⟨timed, h⟩ := histogram
    rw [ofReading_histogram hread] at htable
    obtain ⟨d, hd, hbounds⟩ := bounds_ofHistogram htable
    rw [hbounds, Reading.sentBounds, hread]
    simp only [hd]
    split <;> simp [*]
  | none =>
    rw [Reading.sentBounds, hread]
    cases reading with
    | timer => cases hread
    | summary => cases hread
    | foreign => cases htable
    | _ =>
      cases htable
      simp [gauge, cumulative, number, SeriesValue.bounds]

end SeriesTable

namespace SeriesBuilder

variable (b : SeriesBuilder σ)

/-- The numbers of a plan are finite if the bounds of its reading are. -/
theorem sendsFinite_plan_iff {snapshot : Snapshot} {series : List PlannedSeries}
    (h : b.plan snapshot = .ok series) :
    (∀ planned ∈ series, planned.value.SendsFinite) ↔
      ∀ x ∈ snapshot.reading.sentBounds, x.isFinite = true := by
  obtain ⟨table, htable, -, hseries⟩ := b.plan_spec h
  have hmem := SeriesTable.mem_bounds_iff htable
  rcases hseries with ⟨rfl, rfl⟩ | ⟨name, -, rfl⟩
  · simp [← hmem]
  · constructor
    · intro hfinite x hx
      obtain ⟨entry, hentry, hsent, hbound⟩ := (hmem x).mpr hx
      obtain ⟨typed, htyped⟩ := entry.value.exists_typed?_iff.mpr hsent
      obtain ⟨planned, hplanned, rfl⟩ : ∃ planned,
          b.planEntry snapshot.id name entry = some planned ∧ planned.value = typed :=
        ⟨_, by rw [planEntry, htyped]; rfl, rfl⟩
      exact (SeriesValue.sendsFinite_typed?_iff htyped).mp
        (hfinite planned (List.mem_filterMap.mpr ⟨entry, hentry, hplanned⟩)) x hbound
    · intro hfinite planned hplanned
      obtain ⟨entry, hentry, heq⟩ := List.mem_filterMap.mp hplanned
      obtain ⟨typed, htyped, rfl⟩ := Option.map_eq_some_iff.mp heq
      have hsent := entry.value.exists_typed?_iff.mp ⟨typed, htyped⟩
      refine (SeriesValue.sendsFinite_typed?_iff htyped).mpr fun x hx => ?_
      exact hfinite x ((hmem x).mp ⟨entry, hentry, hsent, hx⟩)

/-- All numbers of all points are finite exactly if every bound that is sent for a snapshot
is. -/
theorem sendsFinite_buildAll_iff (snapshots : List Snapshot) (st : BuildState σ) :
    (∀ r ∈ (b.buildAll snapshots st).1, r.point.value.SendsFinite) ↔
      ∀ block ∈ b.blocks snapshots st, ∀ x ∈ block.1.reading.sentBounds, x.isFinite = true := by
  rw [buildAll_eq]
  simp only [List.mem_flatMap, forall_exists_index, and_imp]
  constructor
  · intro hfinite block hblock
    obtain ⟨series, hplan, hrecords⟩ := b.blocks_finished block hblock
    refine (b.sendsFinite_plan_iff hplan).mp fun planned hplanned => ?_
    obtain ⟨r, hr, kind, rfl⟩ := b.exists_record_of_mem hrecords hplanned
    exact hfinite _ block hblock hr
  · intro hfinite r block hblock hr
    obtain ⟨series, hplan, hrecords⟩ := b.blocks_finished block hblock
    obtain ⟨planned, hplanned, kind, rfl⟩ := b.exists_planned_of_mem hrecords hr
    exact (b.sendsFinite_plan_iff hplan).mpr (hfinite block hblock) planned hplanned

end SeriesBuilder

/-! ## Bounds of a registry's histograms -/

theorem Distribution.mem_bounds_ofHistogram {h : Histogram} {timed : Bool} {d : Distribution}
    (hd : ofHistogram h timed = .ok d) {x : Binary64} (hx : x ∈ d.bounds) :
    x = .zero ∨ ∃ bucket ∈ h.buckets, x = scale timed bucket.bound := by
  obtain ⟨-, -, -, -, -, hzero | ⟨k, hk⟩⟩ := ofHistogram_inv hd
  · rw [hzero] at hx
    exact Or.inl (List.mem_singleton.mp hx)
  · rw [hk] at hx
    obtain ⟨bucket, hbucket, heq⟩ := List.mem_map.mp (List.mem_of_mem_take hx)
    exact Or.inr ⟨bucket, hbucket, heq.symm⟩

/-- The bounds that are sent are zero or bounds of the histogram in the unit of export. -/
theorem Reading.mem_sentBounds {reading : Reading} {x : Binary64}
    (hx : x ∈ reading.sentBounds) :
    x = .zero ∨ ∃ timed h, reading.histogram? = some (timed, h) ∧
      ∃ bucket ∈ h.buckets, x = Distribution.scale timed bucket.bound := by
  unfold sentBounds at hx
  split at hx
  · cases hx
  · next timed h hread =>
    split at hx
    · cases hx
    · next d hd =>
      split at hx
      · have hbounds := Distribution.mem_bounds_of_wire hx
        exact (Distribution.mem_bounds_ofHistogram hd hbounds).imp_right
          fun hbucket => ⟨timed, h, hread, hbucket⟩
      · cases hx

/-- The bounds of a histogram meter in the unit of export, which is the millisecond for times. -/
def MeterState.exportBounds : MeterState → List Binary64
  | .timer h => h.bounds.map (· * 1000)
  | .summary h => h.bounds
  | _ => []

/-- The boundaries for a new histogram meter in the unit of export; infinite ones do not
count. -/
def MeterPlan.exportBoundaries : MeterPlan → List Binary64
  | .timer boundaries _ => (boundaries.filter (!·.isInfinite)).map (· * 1000)
  | .summary boundaries _ => boundaries.filter (!·.isInfinite)
  | _ => []

theorem MeterPlan.mem_exportBounds {plan : MeterPlan} {state : MeterState}
    (h : plan.state = .ok state) {x : Binary64} (hx : x ∈ state.exportBounds) :
    x ∈ plan.exportBoundaries := by
  cases plan with
  | timer boundaries fractions =>
    obtain ⟨histogram, hcreate, rfl⟩ := Fault.exists_of_map_eq_ok h
    rw [MeterState.exportBounds, (StepHistogram.create_eq hcreate).1] at hx
    exact ((Binary64.sorted_perm _).map _).mem_iff.mp hx
  | summary boundaries fractions =>
    obtain ⟨histogram, hcreate, rfl⟩ := Fault.exists_of_map_eq_ok h
    rw [MeterState.exportBounds, (StepHistogram.create_eq hcreate).1] at hx
    exact (Binary64.sorted_perm _).mem_iff.mp hx
  | _ => cases h; cases hx

namespace StepHistogram

variable {h : StepHistogram}

theorem bounds_recordNonNegative (v : Binary64) : (h.recordNonNegative v).2.bounds = h.bounds := by
  rw [recordNonNegative]
  split <;> rfl

theorem bounds_take : h.take.2.bounds = h.bounds := by
  rw [take]
  split <;> rfl

theorem mem_bounds_of_take {histogram : Histogram} (htake : h.take.1 = .ok histogram)
    {bucket : Bucket} (hmem : bucket ∈ histogram.buckets) : bucket.bound ∈ h.bounds := by
  rw [take] at htake
  split at htake
  · next view hview =>
    cases htake
    obtain ⟨values, -, hmake⟩ := Fault.exists_of_bind_eq_ok hview
    rw [Histogram.buckets_of_make hmake] at hmem
    obtain ⟨pair, hpair, rfl⟩ := List.mem_map.mp hmem
    exact (List.of_mem_zip hpair).1
  · cases htake

end StepHistogram

theorem MeterCall.exportBounds_apply (now : Binary64) (m : Meter) (call : MeterCall) :
    (call.apply now m).state.exportBounds = m.state.exportBounds := by
  obtain ⟨id, state⟩ := m
  cases call with
  | increment amount =>
    cases state with
    | counter value =>
      simp only [apply, Meter.increment]
      split <;> rfl
    | _ => rfl
  | record x =>
    cases state with
    | timer h => exact congrArg (List.map _) (StepHistogram.bounds_recordNonNegative x)
    | summary h => exact StepHistogram.bounds_recordNonNegative x
    | _ => rfl
  | time start stop =>
    cases state with
    | timer h => exact congrArg (List.map _) (StepHistogram.bounds_recordNonNegative _)
    | _ => rfl
  | snapshot =>
    cases state with
    | timer h => exact congrArg (List.map _) StepHistogram.bounds_take
    | summary h => exact StepHistogram.bounds_take
    | functionTimer count total lastCount lastTotal =>
      simp only [apply, Meter.snapshot, Meter.readState]
      split <;> rfl
    | _ => rfl
  | _ => cases state <;> rfl

theorem Meter.mem_sentBounds {m : Meter} {now : Binary64} {s : Snapshot}
    (hs : (m.snapshot now).1 = .ok s) {x : Binary64} (hx : x ∈ s.reading.sentBounds) :
    x = .zero ∨ x ∈ m.state.exportBounds := by
  obtain ⟨reading, hread, rfl⟩ := Fault.exists_of_map_eq_ok hs
  refine (Reading.mem_sentBounds hx).imp_right ?_
  rintro ⟨timed, histogram, hhistogram, bucket, hbucket, rfl⟩
  obtain ⟨id, state⟩ := m
  cases state with
  | timer h =>
    obtain ⟨_, htake, rfl⟩ := Fault.exists_of_map_eq_ok hread
    cases hhistogram
    exact List.mem_map_of_mem (StepHistogram.mem_bounds_of_take htake hbucket)
  | summary h =>
    obtain ⟨_, htake, rfl⟩ := Fault.exists_of_map_eq_ok hread
    cases hhistogram
    exact StepHistogram.mem_bounds_of_take htake hbucket
  | functionTimer count total lastCount lastTotal =>
    simp only [readState] at hread
    split at hread <;> cases hread <;> cases hhistogram
  | _ => cases hread; cases hhistogram

namespace SeriesBuilder

variable (b : SeriesBuilder σ)

/-- If all boundaries that a registry is given stay finite in the unit of export, or are infinite
from the start, then all numbers of its records are finite. -/
theorem sendsFinite_of_boundaries {calls : List SessionCall}
    (hcalls : ∀ name tags description plan, .register name tags description plan ∈ calls →
      ∀ x ∈ plan.exportBoundaries, x.isFinite = true) (st : BuildState σ) :
    ∃ snapshots after, (MeterSession.applyAll calls {}).snapshot = (.ok snapshots, after) ∧
      ∀ r ∈ (b.buildAll snapshots st).1, r.point.value.SendsFinite := by
  obtain ⟨after, hsnapshot⟩ := MeterSession.exists_snapshot (MeterSession.kept_run calls)
  refine ⟨_, after, hsnapshot, ?_⟩
  have hmade : ∀ m ∈ (MeterSession.applyAll calls {}).registry.made,
      ∀ x ∈ m.state.exportBounds, x.isFinite = true := by
    refine MeterSession.forall_made (P := fun m => ∀ x ∈ m.state.exportBounds, x.isFinite = true)
      (fun now m call h => ?_) (fun _ _ _ plan state hmem hstate x hx => ?_) (fun m hm => ?_)
    · rwa [MeterCall.exportBounds_apply]
    · exact hcalls _ _ _ plan hmem x (MeterPlan.mem_exportBounds hstate hx)
    · cases hm
  refine (b.sendsFinite_buildAll_iff _ st).mpr fun block hblock x hx => ?_
  obtain ⟨handle, -, hreport⟩ := List.mem_filterMap.mp (b.mem_of_mem_blocks hblock)
  obtain ⟨m, hm, hs⟩ := Registry.exists_meter_of_report hreport
  rcases Meter.mem_sentBounds hs hx with rfl | hbound
  · rfl
  · exact hmade m (Registry.mem_made_of_meter? hm) x hbound

/-- **Numbers on the wire.** Nothing is sent without a check but the bounds of a distribution:
all numbers are finite exactly if these are. A registry sends only finite ones if its boundaries
stay finite in the unit of export. -/
theorem finite_numbers (st : BuildState σ) :
    (∀ snapshots, (∀ r ∈ (b.buildAll snapshots st).1, r.point.value.SendsFinite) ↔
      ∀ block ∈ b.blocks snapshots st,
        ∀ x ∈ block.1.reading.sentBounds, x.isFinite = true) ∧
    ∀ calls, (∀ name tags description plan,
        .register name tags description plan ∈ calls →
          ∀ x ∈ plan.exportBoundaries, x.isFinite = true) →
      ∃ snapshots after, (MeterSession.applyAll calls {}).snapshot = (.ok snapshots, after) ∧
        ∀ r ∈ (b.buildAll snapshots st).1, r.point.value.SendsFinite :=
  ⟨fun snapshots => b.sendsFinite_buildAll_iff snapshots st,
    fun _ hcalls => b.sendsFinite_of_boundaries hcalls st⟩

/-- A timer with a boundary of one second and one without end. -/
def boundedTimer : List SessionCall :=
  [.register "latency" .empty none (.timer [1, .infinite false] [])]

theorem finite_numbers_bounded :
    (∀ name tags description plan, .register name tags description plan ∈ boundedTimer →
      ∀ x ∈ plan.exportBoundaries, x.isFinite = true) ∧
    ∃ snapshots after,
      (MeterSession.applyAll boundedTimer {}).snapshot = (.ok snapshots, after) ∧
      ∀ r ∈ (plainBuilder.buildAll snapshots ⟨none, {}, []⟩).1, r.point.value.SendsFinite := by
  have hboundaries : ∀ name tags description plan,
      .register name tags description plan ∈ boundedTimer →
        ∀ x ∈ plan.exportBoundaries, x.isFinite = true := by
    intro name tags description plan hmem
    cases List.mem_singleton.mp hmem
    decide +kernel
  exact ⟨hboundaries, (finite_numbers plainBuilder ⟨none, {}, []⟩).2 _ hboundaries⟩

end SeriesBuilder

/-! ## A boundary that is not finite -/

/-- The histogram of a step without observations that has one boundary. -/
def Histogram.idle (x : Binary64) : Histogram where
  count := 0
  total := .zero
  max := .float .zero
  percentiles := []
  buckets := [⟨x, .int 0⟩]
  accepted := by
    have hless : (Value.Number.int 0).less (.float .zero) = false := by decide +kernel
    have hgt : (Value.Number.int 0).gtInt 0 = false := by decide +kernel
    simp [checkBuckets, bucketFault, hless, hgt]

theorem StepHistogram.exists_create_idle {x : Binary64} (hx : x.isInfinite = false) :
    ∃ h, create [x] [] defaultWindow = .ok h ∧ h.take = (.ok (.idle x), h) := by
  have hsorted : Binary64.sorted [x] = [x] := List.perm_singleton.mp (Binary64.sorted_perm [x])
  refine ⟨⟨[x], [], defaultWindow, [0], 0, .zero, .zero, []⟩, ?_, ?_⟩
  · simp [create, hx, hsorted]
  · have hview : view ⟨[x], [], defaultWindow, [0], 0, .zero, .zero, []⟩ = .ok (.idle x) := by
      rw [view]
      exact Histogram.make_eq (Histogram.idle x).accepted
    rw [take, hview]
    rfl

theorem MeterSession.snapshot_new {plan : MeterPlan} {state after : MeterState} {reading : Reading}
    (hstate : plan.state = .ok state)
    (hread : Meter.readState .zero state = (.ok reading, after)) (name : String) :
    (applyAll [.register name .empty none plan] {}).snapshot.1 =
      .ok [⟨⟨name, [], none, plan.type⟩, reading⟩] := by
  have hcreate : MeterId.create name .empty none plan.type = ⟨name, [], none, plan.type⟩ := by
    rw [MeterId.create, MeterId.sortTags]
    exact congrArg (MeterId.mk name · none plan.type) List.mergeSort_nil
  have hsession : applyAll [.register name .empty none plan] {} =
      { registry := ⟨[⟨⟨name, [], none, plan.type⟩, state⟩], .insert .empty (name, []) 0⟩ } := by
    rw [applyAll, List.foldl, List.foldl, SessionCall.apply, hstate, Registry.register, hcreate]
    rfl
  rw [hsession]
  simp only [snapshot, Registry.snapshot, Registry.handles, OrderedMap.values, OrderedMap.insert,
    OrderedMap.empty, Pairs.set, List.map, Registry.snapshotAll, Registry.snapshotOne,
    Registry.meter?, List.getElem?_cons_zero, Meter.snapshot, hread]
  rfl

namespace SeriesBuilder

/-- Ten to the 306: a finite number of seconds, but not of milliseconds. -/
def hugeBoundary : Binary64 := .ofInt (10 ^ 306)

/-- **Boundaries are not checked.** A timer with a boundary of 10^306 seconds reports a bound of
infinitely many milliseconds, and a summary with NaN for a boundary reports that. -/
theorem boundaries_not_finite :
    (∃ snapshots, (MeterSession.applyAll
        [.register "latency" .empty none (.timer [hugeBoundary] [])] {}).snapshot.1 =
          .ok snapshots ∧
      ((plainBuilder.buildAll snapshots ⟨none, {}, []⟩).1.map fun r =>
        r.point.value.toValue.map (·.doubles)) =
          [.ok [.zero, .infinite false], .ok [.zero], .ok [.zero]]) ∧
    (∃ snapshots, (MeterSession.applyAll
        [.register "size" .empty none (.summary [.nan] [])] {}).snapshot.1 = .ok snapshots ∧
      ((plainBuilder.buildAll snapshots ⟨none, {}, []⟩).1.map fun r =>
        r.point.value.toValue.map (·.doubles)) =
          [.ok [.zero, .nan], .ok [.zero], .ok [.zero]]) := by
  have hhuge : hugeBoundary.isInfinite = false := by decide +kernel
  obtain ⟨latency, hlatency, htimer⟩ := StepHistogram.exists_create_idle hhuge
  obtain ⟨size, hsize, hsummary⟩ := StepHistogram.exists_create_idle (x := .nan) rfl
  constructor
  · exact ⟨_, MeterSession.snapshot_new (by rw [MeterPlan.state, hlatency]; rfl)
      (by rw [Meter.readState, htimer]; rfl) "latency", by decide +kernel⟩
  · exact ⟨_, MeterSession.snapshot_new (by rw [MeterPlan.state, hsize]; rfl)
      (by rw [Meter.readState, hsummary]; rfl) "size", by decide +kernel⟩

end SeriesBuilder
end Telemetry

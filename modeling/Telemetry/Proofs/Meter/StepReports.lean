import Telemetry.Proofs.Meter.Bucketing

/-!
What the snapshots of a timer or summary say, over whole runs of its use.

Proved here:

* `samples_recordAll`, `total_recordAll`, `max_recordAll`: each part of a histogram as a function of
  the values recorded in the step;
* `bucketsFrom_tallies`: a bucket holds the number of values up to its bound;
* `exists_summary`: the report of a step summarises its values;
* `snapshots_partition`: a run is cut into steps by its snapshots, and each snapshot is the report
  of its own step.
-/

namespace Telemetry

/-! ## The parts of a histogram -/

namespace StepHistogram

theorem create_fields {boundaries fractions : List Binary64} {window : Nat} {h : StepHistogram}
    (hcreate : create boundaries fractions window = .ok h) :
    h.fractions = fractions ∧ h.window = window := by
  unfold create at hcreate
  dsimp only at hcreate
  split at hcreate
  · cases hcreate
  · cases hcreate
    exact ⟨rfl, rfl⟩

theorem exists_create (boundaries : List Binary64) {fractions : List Binary64}
    (hfractions : ∀ p ∈ fractions, isFraction p = true) (window : Nat) :
    ∃ h, create boundaries fractions window = .ok h := by
  have hfind : fractions.find? (!isFraction ·) = none := by
    simpa [List.find?_eq_none] using hfractions
  exact ⟨_, by rw [create, hfind]⟩

theorem view_fields {h : StepHistogram} {histogram : Histogram} (hview : h.view = .ok histogram) :
    h.percentiles = .ok histogram.percentiles ∧ histogram.count = h.count ∧
      histogram.total = h.total ∧ histogram.max = h.max ∧ histogram.buckets = h.cumulative := by
  obtain ⟨values, hvalues, hmake⟩ := Fault.exists_of_bind_eq_ok hview
  unfold Histogram.make at hmake
  split at hmake
  · cases hmake
    exact ⟨hvalues, rfl, rfl, rfl, rfl⟩
  · cases hmake

section Fresh

variable {h : StepHistogram} (hfresh : h.Fresh)

include hfresh

theorem total_recordAll (values : List Binary64) :
    (h.recordAll values).total = Binary64.sum values := by
  induction values using List.reverseRecOn with
  | nil => exact (congrArg total hfresh.reset_eq).symm
  | append_singleton values v ih =>
    rw [recordAll_concat, Binary64.sum, List.foldl_concat]
    exact congrArg (· + v) ih

theorem max_recordAll (values : List Binary64) :
    (h.recordAll values).max = values.foldl Binary64.maxKeepFirst .zero := by
  induction values using List.reverseRecOn with
  | nil => exact (congrArg StepHistogram.max hfresh.reset_eq).symm
  | append_singleton values v ih =>
    rw [recordAll_concat, List.foldl_concat]
    exact congrArg (Binary64.maxKeepFirst · v) ih

omit hfresh in
/-- One more sample: what was kept and the value, without what is then too old. -/
theorem samples_record {h : StepHistogram} (hwanted : h.fractions ≠ []) {values : List Binary64}
    (hsamples : h.samples = values.drop (values.length - h.window)) (v : Binary64) :
    (h.record v).2.samples = (values ++ [v]).drop ((values ++ [v]).length - h.window) := by
  have hlen : h.samples.length = min values.length h.window := by
    rw [hsamples, List.length_drop]
    omega
  simp only [record, keepSample, if_neg hwanted, List.length_append, List.length_singleton]
  by_cases hroom : h.samples.length < h.window
  · simp only [if_pos hroom]
    rw [hsamples, List.drop_append_of_le_length (by omega)]
    congr 2
    omega
  · simp only [if_neg hroom]
    cases hold : h.samples with
    | nil =>
      rw [hold, List.length_nil] at hroom hlen
      dsimp only
      rw [List.drop_of_length_le (by simp; omega)]
    | cons oldest later =>
      rw [hold, List.length_cons] at hroom hlen
      have hlater : later = values.drop (values.length - h.window + 1) := by
        rw [← List.drop_drop, ← hsamples, hold, List.drop_one, List.tail_cons]
      dsimp only
      rw [hlater, List.drop_append_of_le_length (by omega)]
      congr 2
      omega

/-- **Samples.** They are the last values of the step, as many as the window has room for. -/
theorem samples_recordAll (hwanted : h.fractions ≠ []) (values : List Binary64) :
    (h.recordAll values).samples = values.drop (values.length - h.window) := by
  induction values using List.reverseRecOn with
  | nil =>
    rw [List.drop_nil]
    exact (congrArg samples hfresh.reset_eq).symm
  | append_singleton values v ih =>
    rw [recordAll_concat]
    have hrecord := samples_record (h := h.recordAll values) (by rwa [fractions_recordAll])
      (by rwa [window_recordAll]) v
    rwa [window_recordAll] at hrecord

theorem samples_recordAll_nil (hwanted : h.fractions = []) (values : List Binary64) :
    (h.recordAll values).samples = [] := by
  induction values using List.reverseRecOn with
  | nil => exact (congrArg samples hfresh.reset_eq).symm
  | append_singleton values v ih =>
    rw [recordAll_concat]
    simp only [record, keepSample, fractions_recordAll, if_pos hwanted]
    exact ih

end Fresh

/-! ## Buckets -/

theorem getElem?_runningTotals (start : Nat) (counts : List Nat) {i : Nat}
    (hi : i < counts.length) :
    (runningTotals start counts)[i]? = some (start + (counts.take (i + 1)).sum) := by
  induction counts generalizing start i with
  | nil => cases hi
  | cons n rest ih =>
    cases i with
    | zero => simp [runningTotals]
    | succ i =>
      rw [runningTotals, List.getElem?_cons_succ, ih _ (Nat.lt_of_succ_lt_succ hi),
        List.take_succ_cons, List.sum_cons, Nat.add_assoc]

/-- The first tallies together count the values whose places come first. -/
theorem sum_take_tallies {bounds : List Binary64} (values : List Binary64) {m : Nat}
    (hm : m ≤ bounds.length) :
    ((tallies bounds values).take m).sum =
      values.countP fun v => Binary64.placeOf bounds v < m := by
  rw [tallies, ← List.map_take, List.take_range, Nat.min_eq_left hm]
  clear hm
  induction m with
  | zero => simp
  | succ m ih =>
    rw [List.range_succ, List.map_append, List.sum_append, ih, countP_lt_succ]
    rfl

theorem bucketsFrom_tallies {bounds : List Binary64}
    (hs : bounds.Pairwise fun x y => x.le y = true) (hbounds : ∀ b ∈ bounds, b.isNaN = false)
    {values : List Binary64} (hvalues : ∀ v ∈ values, v.isNaN = false) :
    bucketsFrom 0 bounds (tallies bounds values) =
      bounds.map fun b => ⟨b, .int (values.countP (·.le b) : Nat)⟩ := by
  refine List.ext_getElem? fun i => ?_
  rw [bucketsFrom, List.getElem?_map, List.getElem?_map]
  by_cases hi : i < bounds.length
  · have htotal : (runningTotals 0 (tallies bounds values))[i]? =
        some (values.countP (·.le bounds[i])) := by
      rw [getElem?_runningTotals 0 _ (by rwa [length_tallies]), sum_take_tallies values hi,
        Nat.zero_add]
      refine congrArg some (List.countP_congr fun v hv => ?_)
      have hplace := Binary64.placeOf_le_iff hs hbounds (hvalues v hv) hi
      rw [List.getD_eq_getElem?_getD, List.getElem?_eq_getElem hi, Option.getD_some] at hplace
      rw [decide_eq_true_iff, Nat.lt_succ_iff, hplace]
    have hzip : (bounds.zip (runningTotals 0 (tallies bounds values)))[i]? =
        some (bounds[i], values.countP (·.le bounds[i])) :=
      List.getElem?_zip_eq_some.mpr ⟨List.getElem?_eq_getElem hi, htotal⟩
    rw [hzip, List.getElem?_eq_getElem hi]
    rfl
  · have hlen : (bounds.zip (runningTotals 0 (tallies bounds values))).length ≤ i := by
      rw [List.length_zip]
      omega
    rw [List.getElem?_eq_none hlen, List.getElem?_eq_none (by omega)]
    rfl

end StepHistogram

/-! ## The report of a step -/

/-- A histogram that says of values: their number, their sum in their order, the largest of them
and zero, and how many of them are up to each of the finite boundaries in ascending order. -/
structure Histogram.Summarizes (boundaries values : List Binary64) (g : Histogram) : Prop where
  count_eq : g.count = values.length
  total_eq : g.total = Binary64.sum values
  max_isLargest : ∃ largest, g.max = .float largest ∧ Binary64.IsLargest (.zero :: values) largest
  bounds_perm : (g.buckets.map (·.bound)).Perm (boundaries.filter (·.isFinite))
  ascending : (g.buckets.map (·.bound)).Pairwise fun x y => x.le y = true
  counts_eq : ∀ b ∈ g.buckets, b.atOrBelow = .int (values.countP (·.le b.bound) : Nat)

namespace StepHistogram

section Summary

variable {boundaries fractions : List Binary64} {window : Nat} {h : StepHistogram}
  (hcreate : create boundaries fractions window = .ok h)
  (hnan : ∀ b ∈ boundaries, b.isNaN = false) {values : List Binary64}
  (hvalues : ∀ v ∈ values, v.isNaN = false)

include hcreate hnan hvalues

/-- **Summaries.** Whatever histogram is taken summarises the values of the step. -/
theorem summarizes_of_view {g : Histogram} (hview : (h.recordAll values).view = .ok g) :
    g.Summarizes boundaries values := by
  obtain ⟨-, hfresh⟩ := create_eq hcreate
  obtain ⟨hperm, hsorted, hbounds⟩ := bounds_create hcreate hnan
  obtain ⟨-, hcount, htotal, hmax, hbuckets⟩ := view_fields hview
  have hcumulative : g.buckets =
      h.bounds.map fun b => ⟨b, .int (values.countP (·.le b) : Nat)⟩ := by
    rw [hbuckets, ← bucketsFrom_tallies hsorted hbounds hvalues, ← counts_recordAll hfresh,
      ← bounds_recordAll h values]
    rfl
  have hmapped : g.buckets.map (·.bound) = h.bounds := by
    rw [hcumulative, List.map_map]
    exact List.map_id h.bounds
  refine ⟨?_, ?_, ?_, ?_, ?_, ?_⟩
  · rw [hcount, count_recordAll hfresh]
  · rw [htotal, total_recordAll hfresh]
  · rw [hmax, max_recordAll hfresh]
    exact ⟨_, rfl, Binary64.isLargest_foldl hvalues rfl⟩
  · rwa [hmapped]
  · rwa [hmapped]
  · intro b hb
    rw [hcumulative] at hb
    obtain ⟨bound, -, rfl⟩ := List.mem_map.mp hb
    rfl

theorem exists_summary (hroom : fractions = [] ∨ min window values.length ≤ twoTo 53) :
    ∃ g, (h.recordAll values).view = .ok g ∧ g.Summarizes boundaries values := by
  obtain ⟨-, hfresh⟩ := create_eq hcreate
  obtain ⟨hfractions, hwindow⟩ := create_fields hcreate
  have hlen : (h.recordAll values).samples.length ≤ twoTo 53 := by
    by_cases hwanted : h.fractions = []
    · rw [samples_recordAll_nil hfresh hwanted]
      exact Nat.zero_le _
    · have hfew := hroom.resolve_left (hfractions ▸ hwanted)
      rw [samples_recordAll hfresh hwanted, List.length_drop, hwindow]
      omega
  obtain ⟨g, hview, -, -⟩ := (hfresh.sound_recordAll values).exists_view hlen
  exact ⟨g, hview, summarizes_of_view hcreate hnan hvalues hview⟩

end Summary

/-- The report of the values of a step. -/
def report (h : StepHistogram) (values : List Binary64) : Histogram :=
  (h.recordAll values).view.toOption.getD .empty

end StepHistogram

/-! ## Steps of a run -/

namespace MeterUse

/-- The value that a use records in a meter of a kind. Only timers time, and no meter records a
value below zero. -/
def recorded? (kind : HistogramKind) : MeterUse → Option Binary64
  | .record value => if value.isNegative then none else some value
  | .time start stop =>
    if kind = .summary ∨ (stop - start).isNegative then none else some (stop - start)
  | .snapshot _ => none

/-- All values that a run records. -/
def recorded (kind : HistogramKind) (uses : List MeterUse) : List Binary64 :=
  uses.filterMap (recorded? kind)

/-- The values of a run by steps: those of each step that a snapshot ends, and those of the open
step. The first step has some values before. -/
def stepsFrom (kind : HistogramKind) :
    List Binary64 → List MeterUse → List (List Binary64) × List Binary64
  | values, [] => ([], values)
  | values, .snapshot _ :: rest =>
    let later := stepsFrom kind [] rest
    (values :: later.1, later.2)
  | values, .record value :: rest =>
    stepsFrom kind (values ++ ((record value).recorded? kind).toList) rest
  | values, .time start stop :: rest =>
    stepsFrom kind (values ++ ((time start stop).recorded? kind).toList) rest

/-- The steps of a run. -/
def steps (kind : HistogramKind) (uses : List MeterUse) : List (List Binary64) × List Binary64 :=
  stepsFrom kind [] uses

theorem recorded_cons (kind : HistogramKind) (use : MeterUse) (rest : List MeterUse) :
    recorded kind (use :: rest) = (use.recorded? kind).toList ++ recorded kind rest := by
  simp only [recorded, List.filterMap_cons]
  cases use.recorded? kind <;> rfl

/-- **Steps** are a partition of the values that a run records. -/
theorem flatten_stepsFrom (kind : HistogramKind) (uses : List MeterUse) (values : List Binary64) :
    (stepsFrom kind values uses).1.flatten ++ (stepsFrom kind values uses).2 =
      values ++ recorded kind uses := by
  induction uses generalizing values with
  | nil => simp [stepsFrom, recorded]
  | cons use rest ih =>
    rw [recorded_cons]
    cases use with
    | record value => rw [stepsFrom, ih, List.append_assoc]
    | time start stop => rw [stepsFrom, ih, List.append_assoc]
    | snapshot now =>
      simp only [stepsFrom, List.flatten_cons, List.append_assoc, ih]
      rfl

end MeterUse

namespace Meter

open MeterUse (recorded steps stepsFrom)

/-- What a use reports, if it is a snapshot. -/
def reported? (m : Meter) : MeterUse → Option (Except Fault Snapshot)
  | .snapshot now => some (m.snapshot now).1
  | _ => none

/-- The outcomes of the snapshots of a run. -/
def reports : Meter → List MeterUse → List (Except Fault Snapshot)
  | _, [] => []
  | m, use :: rest => (m.reported? use).toList ++ reports (m.after use) rest

/-- A meter after a run. -/
def afterAll (m : Meter) (uses : List MeterUse) : Meter := uses.foldl after m

theorem reports_snapshot {m m' : Meter} {now : Binary64} {outcome : Except Fault Snapshot}
    (h : m.snapshot now = (outcome, m')) (rest : List MeterUse) :
    m.reports (.snapshot now :: rest) = outcome :: m'.reports rest ∧
      m.afterAll (.snapshot now :: rest) = m'.afterAll rest := by
  simp [reports, reported?, afterAll, after, h]

section Runs

variable (kind : HistogramKind) (id : MeterId) {h : StepHistogram} (hfresh : h.Fresh)

include hfresh

theorem after_record (values : List Binary64) (value : Binary64) :
    (Meter.mk id (kind.state (h.recordAll values))).after (.record value) =
      ⟨id, kind.state (h.recordAll
        (values ++ ((MeterUse.record value).recorded? kind).toList))⟩ := by
  rw [after_eq kind id hfresh]
  simp only [pending, note, MeterUse.recorded?]
  split <;> simp

theorem after_time (values : List Binary64) (start stop : Binary64) :
    (Meter.mk id (kind.state (h.recordAll values))).after (.time start stop) =
      ⟨id, kind.state (h.recordAll
        (values ++ ((MeterUse.time start stop).recorded? kind).toList))⟩ := by
  rw [after_eq kind id hfresh]
  cases kind with
  | timer =>
    simp only [pending, note, MeterUse.recorded?, Meter.type, MeterState.type,
      HistogramKind.state, reduceCtorEq, false_or, if_true]
    split <;> simp
  | summary => simp [pending, MeterUse.recorded?, Meter.type, MeterState.type, HistogramKind.state]

/-- A snapshot that is taken reports the step, and the next one starts empty. -/
theorem snapshot_of_view {values : List Binary64} {g : Histogram}
    (hview : (h.recordAll values).view = .ok g) (now : Binary64) :
    (Meter.mk id (kind.state (h.recordAll values))).snapshot now =
      (.ok ⟨id, kind.reading g⟩, ⟨id, kind.state (h.recordAll [])⟩) := by
  rw [snapshot_state, StepHistogram.take, hview, StepHistogram.reset_recordAll, hfresh.reset_eq]
  rfl

end Runs

/-- What the snapshots of a run say, by one report of each list of values.

- `reports_eq`: each snapshot succeeds with the report of the values since the one before.
- `summarizes`: these reports summarise their values.
- `counted`: with the values that are pending, they count all that was recorded.
- `negative`: a value below zero changes nothing. -/
structure Partitioned (kind : HistogramKind) (boundaries : List Binary64)
    (report : List Binary64 → Histogram) (m : Meter) (uses : List MeterUse) : Prop where
  reports_eq : m.reports uses =
    (steps kind uses).1.map fun values => .ok ⟨m.id, kind.reading (report values)⟩
  summarizes : ∀ values ∈ (steps kind uses).1, (report values).Summarizes boundaries values
  counted : ∃ h, (m.afterAll uses).state = kind.state h ∧
    ((steps kind uses).1.map fun values => (report values).count).sum + h.count =
      (recorded kind uses).length
  negative : ∀ v, v.isNegative = true → (m.afterAll uses).record v = (.ok (), m.afterAll uses)

section Partition

variable (kind : HistogramKind) (id : MeterId) {boundaries fractions : List Binary64}
  {window : Nat} {h : StepHistogram}
  (hcreate : StepHistogram.create boundaries fractions window = .ok h)
  (hnan : ∀ b ∈ boundaries, b.isNaN = false)

include hcreate hnan

/-- **Runs by steps.** From a step with some values on, each snapshot reports its own step, and the
meter is left with the open one. -/
theorem reports_from {values : List Binary64} {uses : List MeterUse}
    (hvalues : ∀ v ∈ values ++ recorded kind uses, v.isNaN = false)
    (hroom : fractions = [] ∨ min window (values ++ recorded kind uses).length ≤ twoTo 53) :
    let m : Meter := ⟨id, kind.state (h.recordAll values)⟩
    let steps := stepsFrom kind values uses
    m.reports uses = steps.1.map (fun values => .ok ⟨id, kind.reading (h.report values)⟩) ∧
      m.afterAll uses = ⟨id, kind.state (h.recordAll steps.2)⟩ ∧
      ∀ values ∈ steps.1, (h.report values).Summarizes boundaries values := by
  obtain ⟨-, hfresh⟩ := StepHistogram.create_eq hcreate
  dsimp only
  induction uses generalizing values with
  | nil => exact ⟨rfl, rfl, nofun⟩
  | cons use rest ih =>
    rw [MeterUse.recorded_cons] at hvalues hroom
    cases use with
    | record value =>
      rw [← List.append_assoc] at hvalues hroom
      rw [reports, afterAll, List.foldl_cons, after_record kind id hfresh]
      exact ih hvalues hroom
    | time start stop =>
      rw [← List.append_assoc] at hvalues hroom
      rw [reports, afterAll, List.foldl_cons, after_time kind id hfresh]
      exact ih hvalues hroom
    | snapshot now =>
      have hstep : fractions = [] ∨ min window values.length ≤ twoTo 53 := by
        refine hroom.imp_right fun hle => ?_
        rw [List.length_append] at hle
        omega
      have hlater : fractions = [] ∨ min window (recorded kind rest).length ≤ twoTo 53 := by
        refine hroom.imp_right fun hle => ?_
        rw [List.length_append, List.length_append] at hle
        omega
      rw [List.forall_mem_append] at hvalues
      obtain ⟨g, hview, hsummary⟩ :=
        StepHistogram.exists_summary hcreate hnan hvalues.1 hstep
      have hreport : h.report values = g := by
        rw [StepHistogram.report, hview]
        rfl
      obtain ⟨hreports, hafter, hsummaries⟩ := @ih [] hvalues.2 hlater
      obtain ⟨htaken, hleft⟩ := reports_snapshot (snapshot_of_view kind id hfresh hview now) rest
      refine ⟨?_, hleft.trans hafter, ?_⟩
      · rw [htaken, hreports]
        simp only [stepsFrom, List.map_cons, hreport]
      · simp only [stepsFrom, List.forall_mem_cons, hreport]
        exact ⟨hsummary, hsummaries⟩

end Partition

theorem record_negative (kind : HistogramKind) (id : MeterId) (h : StepHistogram) {v : Binary64}
    (hv : v.isNegative = true) :
    (Meter.mk id (kind.state h)).record v = (.ok (), ⟨id, kind.state h⟩) := by
  cases kind <;> simp [record, HistogramKind.state, StepHistogram.recordNonNegative, hv]

/-- **Snapshots partition the values.** A timer or summary with valid percentiles exists, and there
is one report of each list of values such that in every run of records and snapshots each snapshot
succeeds with the report of the values since the one before. The window may have any size as long
as it does not come to hold more than 2^53 samples, where positions are no longer exact. -/
theorem snapshots_partition (kind : HistogramKind) (id : MeterId)
    {boundaries fractions : List Binary64} (hnan : ∀ b ∈ boundaries, b.isNaN = false)
    (hfractions : ∀ p ∈ fractions, StepHistogram.isFraction p = true) (window : Nat) :
    ∃ h, StepHistogram.create boundaries fractions window = .ok h ∧
      ∃ report : List Binary64 → Histogram, ∀ uses,
        (∀ v ∈ recorded kind uses, v.isNaN = false) →
        (fractions = [] ∨ min window (recorded kind uses).length ≤ 2 ^ 53) →
        Partitioned kind boundaries report ⟨id, kind.state h⟩ uses := by
  obtain ⟨h, hcreate⟩ := StepHistogram.exists_create boundaries hfractions window
  obtain ⟨-, hfresh⟩ := StepHistogram.create_eq hcreate
  refine ⟨h, hcreate, h.report, fun uses hvalues hroom => ?_⟩
  obtain ⟨hreports, hafter, hsummaries⟩ :=
    @reports_from kind id _ _ _ _ hcreate hnan [] uses hvalues hroom
  rw [show h.recordAll [] = h from rfl] at hreports hafter
  refine ⟨hreports, hsummaries, ⟨_, by rw [hafter], ?_⟩, fun v hv => ?_⟩
  · have hcounts : ((steps kind uses).1.map fun values => (h.report values).count).sum =
        ((steps kind uses).1.flatten.length : Int) := by
      rw [List.length_flatten, Nat.cast_list_sum, List.map_map]
      exact congrArg List.sum (List.map_congr_left fun values hmem =>
        (hsummaries values hmem).count_eq)
    rw [hcounts, StepHistogram.count_recordAll hfresh, ← Nat.cast_add, ← List.length_append, steps,
      MeterUse.flatten_stepsFrom]
    rfl
  · rw [hafter]
    exact record_negative kind id _ hv

theorem snapshots_partition_mixed :
    ∃ h, StepHistogram.create mixedBoundaries [1 / 2] 2 = .ok h ∧
      ∃ report, Partitioned .timer mixedBoundaries report ⟨⟨"laps", [], none, .timer⟩, .timer h⟩
          (mixedUses ++ [.snapshot 7, .record (-1), .record 1]) ∧
        steps .timer (mixedUses ++ [.snapshot 7, .record (-1), .record 1]) =
          ([[5], [1 / 2, 3 / 2, 9]], [1]) := by
  have hnan : ∀ b ∈ mixedBoundaries, b.isNaN = false := by decide +kernel
  have hfractions : ∀ p ∈ [1 / 2], StepHistogram.isFraction p = true := by decide +kernel
  obtain ⟨h, hcreate, report, hreport⟩ :=
    snapshots_partition .timer ⟨"laps", [], none, .timer⟩ hnan hfractions 2
  exact ⟨h, hcreate, report, hreport _ (by decide +kernel) (by decide +kernel), by decide +kernel⟩

end Meter
end Telemetry

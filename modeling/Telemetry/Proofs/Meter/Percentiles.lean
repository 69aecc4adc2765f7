import Mathlib.Data.List.DropRight
import Telemetry.Proofs.Meter.StepReports

/-!
The percentiles that a timer or summary reports.

The position of a fraction `p` among `n` samples is the double product `p * (n - 1)`, rounded down.
Rounding keeps the order of products, and a zero fraction has position zero. What is assumed is that
`1 * (n - 1)` is exact, as it is up to `n = 2^53 + 1`: then no position is past the last sample, and
nothing has to stand in for one.

Proved here:

* `percentiles_recordAll`: the percentiles of a step are read from its last values;
* `ranks_of_percentiles`: such percentiles are ordered members of the window, from the smallest to
  the largest;
* `snapshot_percentiles`: so they are in every snapshot of every run.
-/

namespace Telemetry

namespace StepHistogram

/-! ## Values at positions -/

/-- The sample at the place of a fraction. -/
def ranked (window : List Binary64) (p : Binary64) : Binary64 :=
  (Binary64.sorted window).getD (position window.length p) .zero

theorem mapM_eq_map {α β : Type} {f : α → Except Fault β} {g : α → β} {xs : List α}
    (h : ∀ x ∈ xs, f x = .ok (g x)) : xs.mapM f = .ok (xs.map g) := by
  induction xs with
  | nil => rfl
  | cons x rest ih =>
    rw [List.forall_mem_cons] at h
    rw [List.mapM_cons, h.1, ih h.2]
    rfl

theorem rtake_ne_nil {k : Nat} (hk : 1 ≤ k) {values : List Binary64} (hne : values ≠ []) :
    values.rtake k ≠ [] := by
  have hpos := List.length_pos_iff.mpr hne
  rw [← List.length_pos_iff, List.rtake, List.length_drop]
  omega

/-- **Percentiles of a step.** With room for a sample they are read from the last values, as many
as there is room for. -/
theorem percentiles_recordAll {h : StepHistogram} (hfresh : h.Fresh) (hwindow : 1 ≤ h.window)
    {values : List Binary64} (hne : values ≠ [])
    (hend : EndExact (values.rtake h.window).length) :
    (h.recordAll values).percentiles =
      .ok (h.fractions.map fun p => ⟨.float p, .float (ranked (values.rtake h.window) p)⟩) := by
  by_cases hwanted : h.fractions = []
  · rw [percentiles, if_pos (samples_recordAll_nil hfresh hwanted values), fractions_recordAll,
      hwanted]
    rfl
  · have hsamples : (h.recordAll values).samples = values.rtake h.window :=
      samples_recordAll hfresh hwanted values
    rw [percentiles, hsamples, if_neg (rtake_ne_nil hwindow hne), fractions_recordAll]
    have hlen := (Binary64.sorted_perm (values.rtake h.window)).length_eq
    have hsorted : Binary64.sorted (values.rtake h.window) ≠ [] := by
      rw [← List.length_pos_iff, hlen, List.length_pos_iff]
      exact rtake_ne_nil hwindow hne
    refine mapM_eq_map fun p hp => ?_
    rw [valueAt_eq (by rwa [hlen]) hsorted (hfresh.isFraction p hp), hlen]
    rfl

end StepHistogram

/-- Percentiles that are placed in a window of samples.

- `placed`: a value stands at the integer part of the double product, which is within the window.
- `mem`, `le_max`: it is a sample, and no larger than the maximum.
- `smallest`, `largest`: what the fractions zero and one report.
- `mono`: larger fractions do not report smaller values. -/
structure Histogram.Ranks (fractions window : List Binary64) (g : Histogram) : Prop where
  fractions_eq : g.percentiles.map (·.fraction) = fractions.map .float
  placed : ∀ q ∈ g.percentiles, ∃ i : Nat,
    (q.fraction.nearest * Binary64.ofInt (window.length - 1 : Nat)).toInteger = .ok i ∧
      i < window.length ∧ (Binary64.sorted window)[i]? = some q.value.nearest
  mem : ∀ q ∈ g.percentiles, ∃ x ∈ window, q.value = .float x
  le_max : ∀ q ∈ g.percentiles, q.value.nearest.le g.max.nearest = true
  smallest : ∀ q ∈ g.percentiles, q.fraction.nearest.isZero = true →
    Binary64.IsSmallest window q.value.nearest
  largest : ∀ q ∈ g.percentiles, q.fraction.nearest.eq 1 = true →
    Binary64.IsLargest window q.value.nearest
  mono : ∀ q ∈ g.percentiles, ∀ r ∈ g.percentiles,
    q.fraction.nearest.le r.fraction.nearest = true → q.value.nearest.le r.value.nearest = true

namespace StepHistogram

/-- **Ranks.** Values read at the places of fractions are in the order of the fractions, from the
smallest sample to the largest. -/
theorem ranks_of_percentiles {fractions window : List Binary64}
    (hfractions : ∀ p ∈ fractions, isFraction p = true) (hne : window ≠ [])
    (hnan : ∀ x ∈ window, x.isNaN = false) (hend : EndExact window.length) {g : Histogram}
    (hmax : ∀ x ∈ window, x.le g.max.nearest = true)
    (hpercentiles : g.percentiles = fractions.map fun p => ⟨.float p, .float (ranked window p)⟩) :
    g.Ranks fractions window := by
  have hpos := List.length_pos_iff.mpr hne
  have hread : ∀ q ∈ g.percentiles, isFraction q.fraction.nearest = true ∧
      q.value.nearest = ranked window q.fraction.nearest := by
    intro q hq
    rw [hpercentiles] at hq
    obtain ⟨p, hp, rfl⟩ := List.mem_map.mp hq
    exact ⟨hfractions p hp, rfl⟩
  have hmem : ∀ q ∈ g.percentiles, ∃ x ∈ window, q.value = .float x := by
    intro q hq
    rw [hpercentiles] at hq
    obtain ⟨p, hp, rfl⟩ := List.mem_map.mp hq
    exact ⟨_, Binary64.getD_sorted_mem (position_lt hend hpos (hfractions p hp)), rfl⟩
  constructor
  · rw [hpercentiles, List.map_map]
    rfl
  · intro q hq
    obtain ⟨hp, hvalue⟩ := hread q hq
    have hlt := position_lt hend hpos hp
    rw [hvalue]
    exact ⟨_, toInteger_position hend hp, hlt, Binary64.getElem?_sorted hlt⟩
  · exact hmem
  · intro q hq
    obtain ⟨x, hx, hvalue⟩ := hmem q hq
    rw [hvalue]
    exact hmax x hx
  · intro q hq h0
    obtain ⟨hp, hvalue⟩ := hread q hq
    rw [hvalue, ranked, position_of_isZero hend hp h0]
    exact Binary64.isSmallest_sorted hnan hne
  · intro q hq h1
    obtain ⟨hp, hvalue⟩ := hread q hq
    rw [hvalue, ranked, position_of_eq_one hend hp h1]
    exact Binary64.isLargest_sorted hnan hne
  · intro q hq r hr hle
    obtain ⟨hp, hvalue⟩ := hread q hq
    obtain ⟨hp', hvalue'⟩ := hread r hr
    rw [hvalue, hvalue']
    exact Binary64.getD_sorted_le hnan (position_mono hend hp hp' hle)
      (position_lt hend hpos hp')

/-- The report of a step has its percentiles: all zero without values, and else placed in the last
values. -/
theorem exists_ranked_view {h : StepHistogram} (hfresh : h.Fresh) (hwindow : 1 ≤ h.window)
    {values : List Binary64} (hvalues : ∀ v ∈ values, v.isNaN = false)
    (hend : EndExact (values.rtake h.window).length) :
    ∃ g, (h.recordAll values).view = .ok g ∧
      (values = [] → g.percentiles = h.fractions.map (⟨.float ·, .float .zero⟩)) ∧
      (values ≠ [] → g.Ranks h.fractions (values.rtake h.window)) := by
  have hsound := hfresh.sound_recordAll values
  by_cases hne : values = []
  · have hempty : (h.recordAll values).percentiles =
        .ok (h.fractions.map (⟨.float ·, .float .zero⟩)) := by
      rw [hne]
      exact if_pos (congrArg samples hfresh.reset_eq).symm
    obtain ⟨_, hview⟩ := hsound.view_eq hempty
    exact ⟨_, hview, fun _ => rfl, fun h => absurd hne h⟩
  · obtain ⟨_, hview⟩ := hsound.view_eq (percentiles_recordAll hfresh hwindow hne hend)
    have hsub : ∀ x ∈ values.rtake h.window, x ∈ values := fun x => List.mem_of_mem_drop
    have hmax : ∀ x ∈ values, x.le (h.recordAll values).max = true := by
      rw [max_recordAll hfresh]
      exact fun x hx =>
        (Binary64.isLargest_foldl hvalues rfl).2 x (List.mem_cons_of_mem _ hx)
    exact ⟨_, hview, fun h => absurd h hne, fun _ =>
      ranks_of_percentiles hfresh.isFraction (rtake_ne_nil hwindow hne)
        (fun x hx => hvalues x (hsub x hx)) hend (fun x hx => hmax x (hsub x hx)) rfl⟩

end StepHistogram

namespace Meter

/-- **Percentiles.** A timer or summary with valid percentiles and room for a sample exists, and
whatever has been done with it, the next snapshot succeeds. Without values since the last one all
its percentiles are zero; otherwise they are placed in the last values, as many as there is room
for. -/
theorem snapshot_percentiles (kind : HistogramKind) (id : MeterId) (boundaries : List Binary64)
    {fractions : List Binary64} (hfractions : ∀ p ∈ fractions, StepHistogram.isFraction p = true)
    {window : Nat} (hwindow : 1 ≤ window) :
    ∃ h, StepHistogram.create boundaries fractions window = .ok h ∧ ∀ uses,
      let m := (run ⟨id, kind.state h⟩ [] uses).1
      let values := (run ⟨id, kind.state h⟩ [] uses).2
      (∀ v ∈ values, v.isNaN = false) →
      StepHistogram.EndExact (values.rtake window).length →
      ∀ now, ∃ g, (m.snapshot now).1 = .ok ⟨id, kind.reading g⟩ ∧
        (values = [] → g.percentiles = fractions.map (⟨.float ·, .float .zero⟩)) ∧
        (values ≠ [] → g.Ranks fractions (values.rtake window)) := by
  obtain ⟨h, hcreate⟩ := StepHistogram.exists_create boundaries hfractions window
  obtain ⟨-, hfresh⟩ := StepHistogram.create_eq hcreate
  obtain ⟨rfl, rfl⟩ := StepHistogram.create_fields hcreate
  refine ⟨h, hcreate, fun uses => ?_⟩
  have hrun := run_eq kind id hfresh [] uses
  rw [show h.recordAll [] = h from rfl] at hrun
  dsimp only
  intro hvalues hend now
  obtain ⟨g, hview, hempty, hranks⟩ :=
    StepHistogram.exists_ranked_view hfresh hwindow hvalues hend
  refine ⟨g, ?_, hempty, hranks⟩
  rw [hrun, snapshot_state, StepHistogram.take, hview]
  rfl

/-- After the snapshot three values, and one below zero, for a window of two. -/
def evictingUses : List MeterUse :=
  [.record 5, .snapshot .zero, .record 9, .record (-1), .record 3, .record (1 / 2)]

theorem snapshot_percentiles_evicting :
    ∃ h g, StepHistogram.create [2] [0, 1 / 2, 1] 2 = .ok h ∧
      ((run ⟨⟨"laps", [], none, .timer⟩, .timer h⟩ [] evictingUses).1.snapshot 7).1 =
        .ok ⟨⟨"laps", [], none, .timer⟩, .timer g⟩ ∧
      g.Ranks [0, 1 / 2, 1] [3, 1 / 2] := by
  have hfractions : ∀ p ∈ [0, 1 / 2, 1], StepHistogram.isFraction p = true := by decide +kernel
  obtain ⟨h, hcreate, hruns⟩ := snapshot_percentiles .timer ⟨"laps", [], none, .timer⟩ [2]
    hfractions (show 1 ≤ 2 by decide)
  have hh : StepHistogram.create [2] [0, 1 / 2, 1] 2 =
      .ok ⟨[2], [0, 1 / 2, 1], 2, [0], 0, .zero, .zero, []⟩ := by decide +kernel
  obtain rfl := Except.ok.inj (hcreate.symm.trans hh)
  have hvalues : (run ⟨⟨"laps", [], none, .timer⟩, .timer
      ⟨[2], [0, 1 / 2, 1], 2, [0], 0, .zero, .zero, []⟩⟩ [] evictingUses).2 =
      [9, 3, 1 / 2] := by decide +kernel
  have hrun := hruns evictingUses
  rw [show HistogramKind.timer.state = MeterState.timer from rfl, hvalues] at hrun
  obtain ⟨g, hsnapshot, -, hranks⟩ := hrun (by decide +kernel)
    (StepHistogram.endExact_of_le (by decide)) 7
  exact ⟨_, g, hcreate, hsnapshot, hranks (by simp)⟩

end Meter
end Telemetry

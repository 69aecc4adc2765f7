import Mathlib.Algebra.BigOperators.Ring.Finset
import Telemetry.Meter.Basic
import Telemetry.Proofs.Meter.StepHistogram

/-!
Timers and summaries over whole runs, from the values that are recorded to the distribution
that is exported.

Proved here:

* `run_eq`: after any run of records and snapshots a meter is as new, with the values since
  the last snapshot recorded;
* `snapshot_distribution`: each count of the exported distribution is the number of those
  values between two neighbouring bounds, the last count that of the values above all
  exported bounds.
-/

namespace Telemetry

/-- The kinds of meters that hold a histogram. -/
inductive HistogramKind where
  | timer | summary
  deriving DecidableEq, Repr

namespace HistogramKind

def state : HistogramKind → StepHistogram → MeterState
  | .timer => .timer
  | .summary => .summary

def reading : HistogramKind → Histogram → Reading
  | .timer => .timer
  | .summary => .summary

end HistogramKind

/-- What is done with a meter that holds a histogram. -/
inductive MeterUse where
  | record (value : Binary64)
  | time (start stop : Binary64)
  | snapshot (now : Binary64)

namespace Meter

/-! ## Runs -/

/-- The meter after a use. -/
def after (m : Meter) : MeterUse → Meter
  | .record value => (m.record value).2
  | .time start stop => (m.time start stop (.ok ())).2
  | .snapshot now => (m.snapshot now).2

/-- Adds a value that is recorded; a value below zero is not. -/
def note (values : List Binary64) (value : Binary64) : List Binary64 :=
  if value.isNegative then values else values ++ [value]

/-- The values recorded since the last snapshot, after a use. -/
def pending (m : Meter) (values : List Binary64) : MeterUse → List Binary64
  | .record value => note values value
  | .time start stop => if m.type = .timer then note values (stop - start) else values
  | .snapshot now =>
    match (m.snapshot now).1 with
    | .ok _ => []
    | .error _ => values

/-- A meter after some uses, and the values recorded since the last snapshot. -/
def run : Meter → List Binary64 → List MeterUse → Meter × List Binary64
  | m, values, [] => (m, values)
  | m, values, use :: rest => run (m.after use) (m.pending values use) rest

/-- A snapshot of a meter that holds a histogram takes the histogram. -/
theorem snapshot_state (kind : HistogramKind) (id : MeterId) (h : StepHistogram)
    (now : Binary64) :
    (Meter.mk id (kind.state h)).snapshot now =
      (h.take.1.map fun histogram => ⟨id, kind.reading histogram⟩,
        ⟨id, kind.state h.take.2⟩) := by
  cases hview : h.view with
  | error fault =>
    cases kind <;>
      simp [HistogramKind.state, snapshot, readState, StepHistogram.take, hview, Except.map]
  | ok histogram =>
    cases kind <;>
      simp [HistogramKind.state, HistogramKind.reading, snapshot, readState,
        StepHistogram.take, hview, Except.map]

section Runs

variable (kind : HistogramKind) (id : MeterId) {h : StepHistogram} (hfresh : h.Fresh)

theorem recordNonNegative_recordAll (values : List Binary64) (value : Binary64) :
    ((h.recordAll values).recordNonNegative value).2 = h.recordAll (note values value) := by
  unfold StepHistogram.recordNonNegative note
  split
  · rfl
  · exact (h.recordAll_concat values value).symm

include hfresh

/-- One use keeps the meter as new with the pending values recorded. -/
theorem after_eq (values : List Binary64) (use : MeterUse) :
    (Meter.mk id (kind.state (h.recordAll values))).after use =
      ⟨id, kind.state (h.recordAll
        ((Meter.mk id (kind.state (h.recordAll values))).pending values use))⟩ := by
  cases use with
  | record value =>
    cases kind <;>
      simp [after, pending, HistogramKind.state, record, recordNonNegative_recordAll]
  | time start stop =>
    cases kind <;>
      simp [after, pending, HistogramKind.state, time, Meter.type, MeterState.type,
        recordNonNegative_recordAll]
  | snapshot now =>
    have htake := snapshot_state kind id (h.recordAll values) now
    cases hview : (h.recordAll values).view with
    | error fault =>
      have hsame : (h.recordAll values).take = (.error fault, h.recordAll values) := by
        rw [StepHistogram.take, hview]
      rw [hsame] at htake
      simp [after, pending, htake, Except.map]
    | ok histogram =>
      have hreset : (h.recordAll values).take = (.ok histogram, h.recordAll []) := by
        rw [StepHistogram.take, hview, StepHistogram.reset_recordAll, hfresh.reset_eq]
        rfl
      rw [hreset] at htake
      simp [after, pending, htake, Except.map]

/-- **Runs.** A meter is as new, with the values since the last snapshot recorded. -/
theorem run_eq (values : List Binary64) (uses : List MeterUse) :
    (run ⟨id, kind.state (h.recordAll values)⟩ values uses).1 =
      ⟨id, kind.state (h.recordAll
        (run ⟨id, kind.state (h.recordAll values)⟩ values uses).2)⟩ := by
  induction uses generalizing values with
  | nil => rfl
  | cons use rest ih =>
    simp only [run]
    rw [after_eq kind id hfresh values use]
    exact ih _

end Runs

end Meter

/-! ## The exported distribution -/

/-- Whether a value is in a bucket: above the bound before it, if there is one, and at most
its own. -/
def inBucket (bounds : List Binary64) (j : Nat) (v : Binary64) : Bool :=
  (j = 0 || (bounds.getD (j - 1) .zero).lt v) && v.le (bounds.getD j .zero)

/-- A distribution counts values by ascending bounds, the first few of which it keeps: in
milliseconds, if they are durations in seconds. -/
structure Distribution.Tallies (timed : Bool) (bounds values : List Binary64)
    (d : Distribution) : Prop where
  pos : 1 ≤ d.bounds.length
  le : d.bounds.length ≤ bounds.length
  bounds_eq : d.bounds = (bounds.take d.bounds.length).map fun b => if timed then b * 1000 else b
  length_counts : d.counts.length = d.bounds.length + 1
  count_eq : ∀ j, j < d.bounds.length →
    d.counts[j]? = some (values.countP (inBucket bounds j) : Int)
  overflow_eq : d.counts[d.bounds.length]? =
    some (values.countP (bounds.getD (d.bounds.length - 1) .zero).lt : Int)
  nothing_trimmed : ∀ v ∈ values,
    ¬ ((bounds.getD (d.bounds.length - 1) .zero).lt v = true ∧
      v.le (bounds.getD (bounds.length - 1) .zero) = true)

namespace StepHistogram

section Places

variable {bounds : List Binary64} (hs : bounds.Pairwise fun x y => x.le y = true)
  (hbounds : ∀ b ∈ bounds, b.isNaN = false)

include hs hbounds

theorem inBucket_iff {v : Binary64} (hv : v.isNaN = false) {j : Nat} (hj : j < bounds.length) :
    inBucket bounds j v = true ↔ Binary64.placeOf bounds v = j := by
  rw [inBucket, Bool.and_eq_true, ← Binary64.placeOf_le_iff hs hbounds hv hj]
  cases j with
  | zero => simp
  | succ j =>
    have hj' : j < bounds.length := by omega
    simp only [Nat.add_one_ne_zero, decide_false, Bool.false_or, Nat.add_sub_cancel]
    rw [← Binary64.lt_placeOf_iff hs hbounds hv hj']
    omega

theorem tallies_getElem {values : List Binary64} (hvalues : ∀ v ∈ values, v.isNaN = false)
    {j : Nat} (hj : j < bounds.length) :
    (tallies bounds values)[j]? = some (values.countP (inBucket bounds j)) := by
  have hcount : values.countP (fun v => Binary64.placeOf bounds v = j) =
      values.countP (inBucket bounds j) := by
    refine List.countP_congr fun v hv => ?_
    rw [decide_eq_true_iff]
    exact (inBucket_iff hs hbounds (hvalues v hv) hj).symm
  rw [tallies, List.getElem?_map, List.getElem?_range hj, Option.map_some, hcount]

omit hs hbounds in
/-- Values outside the first buckets, which hold all tallies, are above every bound. -/
theorem le_placeOf_of_covers {values : List Binary64} {k : Nat}
    (hcovers : Distribution.Covers ((tallies bounds values).map Int.ofNat) k) {v : Binary64}
    (hm : v ∈ values) (hk : k ≤ Binary64.placeOf bounds v) :
    bounds.length ≤ Binary64.placeOf bounds v := by
  by_contra hlt
  rw [Nat.not_le] at hlt
  have h0 := hcovers.2 _ hk
  rw [List.getD_eq_getElem?_getD, List.getElem?_map, tallies, List.getElem?_map,
    List.getElem?_range hlt] at h0
  have hcount : values.countP
      (fun w => Binary64.placeOf bounds w = Binary64.placeOf bounds v) = 0 := by
    simpa using h0
  exact absurd (decide_eq_true rfl) (List.countP_eq_zero.mp hcount v hm)

/-- The values above a kept bound, if nothing is in the buckets after it, are those that the
tallies leave out. -/
theorem countP_above_eq {values : List Binary64} (hvalues : ∀ v ∈ values, v.isNaN = false)
    {k : Nat} (hk : k ≤ bounds.length)
    (hcovers : Distribution.Covers ((tallies bounds values).map Int.ofNat) k) :
    (values.countP (bounds.getD (k - 1) .zero).lt : Int) =
      values.length - ((tallies bounds values).map Int.ofNat).sum := by
  have hpos := hcovers.1
  have habove : values.countP (bounds.getD (k - 1) .zero).lt =
      values.countP fun v => ¬ Binary64.placeOf bounds v < bounds.length := by
    refine List.countP_congr fun v hv => ?_
    rw [decide_eq_true_iff, ← Binary64.lt_placeOf_iff hs hbounds (hvalues v hv) (by omega)]
    constructor
    · intro hlt
      have := le_placeOf_of_covers hcovers hv (by omega)
      omega
    · intro hge
      omega
  have hsum : ((tallies bounds values).map Int.ofNat).sum =
      (values.countP fun v => Binary64.placeOf bounds v < bounds.length : Nat) := by
    rw [← sum_tallies]
    exact (Nat.cast_list_sum _).symm
  have htotal := List.length_eq_countP_add_countP
    (fun v => decide (Binary64.placeOf bounds v < bounds.length)) (l := values)
  simp only [decide_eq_true_eq] at htotal
  rw [habove, hsum]
  omega

/-- The counts that trimming leaves, and the rest, tally the values. -/
theorem tallies_trimEmpty (hne : bounds ≠ []) {values : List Binary64}
    (hvalues : ∀ v ∈ values, v.isNaN = false) (timed : Bool) (count : Int) (mean : Binary64) :
    Distribution.Tallies timed bounds values ⟨count, mean,
      (bounds.take (Distribution.trimEmpty ((tallies bounds values).map Int.ofNat)).length).map
        (Distribution.scale timed),
      Distribution.trimEmpty ((tallies bounds values).map Int.ofNat) ++
        [values.length - ((tallies bounds values).map Int.ofNat).sum]⟩ := by
  set counts := (tallies bounds values).map Int.ofNat with hcounts
  have hlen : counts.length = bounds.length := by
    rw [hcounts, List.length_map, length_tallies]
  have hfilled : counts ≠ [] := by
    rw [← List.length_pos_iff, hlen]
    exact List.length_pos_iff.mpr hne
  have hnonneg : ∀ n ∈ counts, 0 ≤ n := by
    intro n hn
    obtain ⟨t, -, rfl⟩ := List.mem_map.mp hn
    exact Int.natCast_nonneg t
  have hcovers := (Distribution.isLeast_trimEmpty hfilled hnonneg).1
  have hkept := Distribution.trimEmpty_eq_take counts
  have hle : (Distribution.trimEmpty counts).length ≤ bounds.length :=
    hlen ▸ (Distribution.trimEmpty_isPrefix counts).length_le
  generalize (Distribution.trimEmpty counts).length = k at hcovers hkept hle ⊢
  rw [hkept]
  have hbk : ((bounds.take k).map (Distribution.scale timed)).length = k := by
    rw [List.length_map, List.length_take, Nat.min_eq_left hle]
  have hck : (counts.take k).length = k := by
    rw [List.length_take, hlen, Nat.min_eq_left hle]
  have hpos := hcovers.1
  constructor <;> dsimp only
  · rwa [hbk]
  · rwa [hbk]
  · rw [hbk]
    rfl
  · rw [hbk, List.length_append, hck, List.length_singleton]
  · intro j hj
    rw [hbk] at hj
    rw [List.getElem?_append_left (by omega), List.getElem?_take_of_lt hj, hcounts,
      List.getElem?_map, tallies_getElem hs hbounds hvalues (by omega)]
    rfl
  · rw [hbk, List.getElem?_append_right (by omega), hck, Nat.sub_self,
      countP_above_eq hs hbounds hvalues hle hcovers]
    rfl
  · intro v hv ⟨habove, hbelow⟩
    rw [hbk, ← Binary64.lt_placeOf_iff hs hbounds (hvalues v hv) (by omega)] at habove
    rw [← Binary64.placeOf_le_iff hs hbounds (hvalues v hv) (by omega)] at hbelow
    have := le_placeOf_of_covers hcovers hv (by omega)
    omega

end Places

/-- **The distribution of a step.** The snapshot of recorded values exists, and its
distribution tallies them. -/
theorem exists_tallies {h : StepHistogram} (hfresh : h.Fresh) (hne : h.bounds ≠ [])
    (hs : h.bounds.Pairwise fun x y => x.le y = true)
    (hbounds : ∀ b ∈ h.bounds, b.isNaN = false) {values : List Binary64}
    (hvalues : ∀ v ∈ values, v.isNaN = false) (hlen : values.length < 2 ^ 53) (timed : Bool) :
    ∃ histogram d, (h.recordAll values).view = .ok histogram ∧
      Distribution.ofHistogram histogram timed = .ok d ∧ d.Tallies timed h.bounds values := by
  have hlen' : values.length ≤ twoTo 53 := by
    rw [twoTo_eq_pow]
    omega
  obtain ⟨histogram, hview, hcount, hbuckets⟩ := exists_view hfresh hlen'
  have hsum : (tallies h.bounds values).sum ≤ 2 ^ 53 := by
    rw [sum_tallies]
    exact Nat.le_trans List.countP_le_length (Nat.le_of_lt hlen)
  have hsmall : histogram.count < 2 ^ 1023 := by
    have hlt : ((2 ^ 53 : Nat) : Int) < 2 ^ 1023 := by decide +kernel
    rw [hcount]
    exact Int.lt_trans (Int.ofNat_lt.mpr hlen) hlt
  obtain ⟨mean, heq⟩ := ofHistogram_bucketsFrom hne (length_tallies _ _).symm hbuckets hsum
    hsmall timed
  rw [hcount] at heq
  exact ⟨histogram, _, hview, heq, tallies_trimEmpty hs hbounds hne hvalues timed _ _⟩

/-- The bounds of a new histogram are the finite boundaries in ascending order. -/
theorem bounds_create {boundaries fractions : List Binary64} {window : Nat} {h : StepHistogram}
    (hcreate : create boundaries fractions window = .ok h)
    (hnan : ∀ b ∈ boundaries, b.isNaN = false) :
    h.bounds.Perm (boundaries.filter (·.isFinite)) ∧
      h.bounds.Pairwise (fun x y => x.le y = true) ∧ ∀ b ∈ h.bounds, b.isNaN = false := by
  have hfilter : boundaries.filter (!·.isInfinite) = boundaries.filter (·.isFinite) := by
    refine List.filter_congr fun b hb => ?_
    have := hnan b hb
    cases b <;> simp_all [Binary64.isInfinite, Binary64.isFinite, Binary64.isNaN]
  have hfinite : ∀ b ∈ boundaries.filter (·.isFinite), b.isNaN = false :=
    fun b hb => hnan b (List.mem_of_mem_filter hb)
  obtain ⟨heq, -⟩ := create_eq hcreate
  rw [hfilter] at heq
  have hperm := Binary64.sorted_perm (boundaries.filter (·.isFinite))
  rw [heq]
  exact ⟨hperm, Binary64.sorted_pairwise hfinite, fun b hb => hfinite b (hperm.mem_iff.mp hb)⟩

end StepHistogram

/-- **Bucketing.** For a new timer or summary with at least one finite boundary, whatever
has been done with it: the next snapshot has a distribution, which tallies the values since
the last one by the finite boundaries in ascending order. -/
theorem Meter.snapshot_distribution (kind : HistogramKind) (id : MeterId)
    {boundaries fractions : List Binary64} {window : Nat} {h : StepHistogram}
    (hcreate : StepHistogram.create boundaries fractions window = .ok h)
    (hnan : ∀ b ∈ boundaries, b.isNaN = false) (hfinite : ∃ b ∈ boundaries, b.isFinite = true)
    (uses : List MeterUse)
    (hvalues : ∀ v ∈ (run ⟨id, kind.state h⟩ [] uses).2, v.isNaN = false)
    (hlen : (run ⟨id, kind.state h⟩ [] uses).2.length < 2 ^ 53) (now : Binary64)
    (timed : Bool) :
    ∃ bounds : List Binary64,
      bounds.Perm (boundaries.filter (·.isFinite)) ∧
      bounds.Pairwise (fun x y => x.le y = true) ∧
      ∃ histogram d,
        ((run ⟨id, kind.state h⟩ [] uses).1.snapshot now).1 = .ok ⟨id, kind.reading histogram⟩ ∧
        Distribution.ofHistogram histogram timed = .ok d ∧
        d.Tallies timed bounds (run ⟨id, kind.state h⟩ [] uses).2 := by
  obtain ⟨-, hfresh⟩ := StepHistogram.create_eq hcreate
  obtain ⟨hperm, hsorted, hbounds⟩ := StepHistogram.bounds_create hcreate hnan
  have hne : h.bounds ≠ [] := by
    obtain ⟨b, hb, hbf⟩ := hfinite
    exact List.ne_nil_of_mem (hperm.mem_iff.mpr (List.mem_filter.mpr ⟨hb, hbf⟩))
  have hrun := run_eq kind id hfresh [] uses
  rw [show h.recordAll [] = h from rfl] at hrun
  obtain ⟨histogram, d, hview, hd, htallies⟩ :=
    StepHistogram.exists_tallies hfresh hne hsorted hbounds hvalues hlen timed
  refine ⟨h.bounds, hperm, hsorted, histogram, d, ?_, hd, htallies⟩
  rw [hrun, snapshot_state, StepHistogram.take, hview]
  rfl

namespace Meter

/-- Boundaries out of order, one of them repeated and one infinite. -/
def mixedBoundaries : List Binary64 := [2, 1 / 2, .infinite false, 2]

def mixedHistogram : StepHistogram :=
  ⟨[1 / 2, 2, 2], [1 / 2], 2, [0, 0, 0], 0, .zero, .zero, []⟩

/-- After the snapshot, a value equal to a boundary, one between, one below zero and one above
all. -/
def mixedUses : List MeterUse :=
  [.record 5, .snapshot .zero, .record (1 / 2), .time 1 (5 / 2), .record (-1), .record 9]

theorem sorted_mixed : Binary64.sorted [2, 1 / 2, 2] = [1 / 2, 2, 2] := by
  have hgt : (2 : Binary64).le (1 / 2) = false := by decide +kernel
  have hlt : (1 / 2 : Binary64).le 2 = true := by decide +kernel
  have hrefl : (2 : Binary64).le 2 = true := by decide +kernel
  rw [Binary64.sorted_eq (by decide +kernel)]
  simp [List.mergeSort, List.MergeSort.Internal.splitInTwo, hgt, hlt, hrefl]

theorem create_mixed :
    StepHistogram.create mixedBoundaries [1 / 2] 2 = .ok mixedHistogram := by
  have hfilter : mixedBoundaries.filter (!·.isInfinite) = [2, 1 / 2, 2] := by decide +kernel
  have hfind : [(1 / 2 : Binary64)].find? (!StepHistogram.isFraction ·) = none := by
    decide +kernel
  rw [StepHistogram.create, hfilter, sorted_mixed, hfind]
  rfl

/-- The least of the finite boundaries is the first in ascending order. -/
theorem head?_mixed {bounds : List Binary64} (hperm : bounds.Perm [2, 1 / 2, 2])
    (hsorted : bounds.Pairwise fun x y => x.le y = true) : bounds.head? = some (1 / 2) := by
  have hgt : (2 : Binary64).le (1 / 2) = false := by decide +kernel
  have hmem : (1 / 2 : Binary64) ∈ bounds := hperm.mem_iff.mpr (by simp)
  cases bounds with
  | nil => cases hmem
  | cons first rest =>
    have hfirst : first = 2 ∨ first = 1 / 2 := by
      simpa [or_comm, or_left_comm] using hperm.mem_iff.mp (List.mem_cons_self ..)
    rcases hfirst with rfl | rfl
    · rcases List.mem_cons.mp hmem with heq | hrest
      · exact absurd heq (by decide +kernel)
      · rw [(List.pairwise_cons.mp hsorted).1 _ hrest] at hgt
        cases hgt
    · rfl

theorem snapshot_distribution_mixed :
    StepHistogram.create mixedBoundaries [1 / 2] 2 = .ok mixedHistogram ∧
    ∃ bounds : List Binary64,
      bounds.Perm [2, 1 / 2, 2] ∧ bounds.Pairwise (fun x y => x.le y = true) ∧
      ∃ histogram d,
        ((run ⟨⟨"laps", [], none, .timer⟩, .timer mixedHistogram⟩ [] mixedUses).1.snapshot 7).1 =
          .ok ⟨⟨"laps", [], none, .timer⟩, .timer histogram⟩ ∧
        Distribution.ofHistogram histogram true = .ok d ∧
        d.Tallies true bounds [1 / 2, 3 / 2, 9] ∧ d.bounds.head? = some 500 := by
  have hvalues : (run ⟨⟨"laps", [], none, .timer⟩, .timer mixedHistogram⟩ [] mixedUses).2 =
      [1 / 2, 3 / 2, 9] := by decide +kernel
  have hfilter : mixedBoundaries.filter (·.isFinite) = [2, 1 / 2, 2] := by decide +kernel
  have h := snapshot_distribution .timer ⟨"laps", [], none, .timer⟩ create_mixed
    (by decide +kernel) (by decide +kernel) mixedUses (by decide +kernel) (by decide +kernel) 7 true
  rw [show HistogramKind.timer.state = MeterState.timer from rfl, hvalues, hfilter] at h
  obtain ⟨bounds, hperm, hsorted, histogram, d, hsnapshot, hd, htallies⟩ := h
  refine ⟨create_mixed, bounds, hperm, hsorted, histogram, d, hsnapshot, hd, htallies, ?_⟩
  rw [htallies.bounds_eq, List.head?_map, List.head?_take,
    if_neg (Nat.ne_of_gt htallies.pos), head?_mixed hperm hsorted]
  decide +kernel

end Meter
end Telemetry

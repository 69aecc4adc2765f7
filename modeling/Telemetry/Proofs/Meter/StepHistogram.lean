import Telemetry.Meter.StepHistogram
import Telemetry.Proofs.Binary64.Sorted
import Telemetry.Proofs.Series.WholeCounts

/-!
The state of a histogram under construction as a function of the values recorded since its
last reset.

Proved here:

* `create_eq`: what a new histogram is;
* `counts_recordAll`: a bucket's count is the number of values whose place it is;
* `position_lt`, `position_mono`: the positions of fractions are within the samples, in the order of
  the fractions;
* `exists_percentiles`: valid percentiles can always be read;
* `ofHistogram_bucketsFrom`: the distribution has the counts that a snapshot adds up;
* `Sound.view_eq`, `Sound.exists_view`: the snapshot exists, and its cumulative counts are running
  totals;
* `exists_view`: hence the snapshot of recorded values adds up their tallies.
-/

namespace Telemetry.StepHistogram

/-- Records values in turn, also past one whose sample cannot be kept. -/
def recordAll (h : StepHistogram) (values : List Binary64) : StepHistogram :=
  values.foldl (fun h v => (h.record v).2) h

theorem recordAll_concat (h : StepHistogram) (values : List Binary64) (v : Binary64) :
    h.recordAll (values ++ [v]) = ((h.recordAll values).record v).2 := by
  simp [recordAll]

@[simp] theorem bounds_recordAll (h : StepHistogram) (values : List Binary64) :
    (h.recordAll values).bounds = h.bounds := by
  induction values using List.reverseRecOn with
  | nil => rfl
  | append_singleton values v ih => rw [recordAll_concat]; exact ih

@[simp] theorem fractions_recordAll (h : StepHistogram) (values : List Binary64) :
    (h.recordAll values).fractions = h.fractions := by
  induction values using List.reverseRecOn with
  | nil => rfl
  | append_singleton values v ih => rw [recordAll_concat]; exact ih

@[simp] theorem window_recordAll (h : StepHistogram) (values : List Binary64) :
    (h.recordAll values).window = h.window := by
  induction values using List.reverseRecOn with
  | nil => rfl
  | append_singleton values v ih => rw [recordAll_concat]; exact ih

theorem reset_recordAll (h : StepHistogram) (values : List Binary64) :
    (h.recordAll values).reset = h.reset := by
  simp [reset]

/-! ## Values since a reset -/

/-- A histogram at the start of a step. -/
structure Fresh (h : StepHistogram) : Prop where
  reset_eq : h.reset = h
  isFraction : ∀ p ∈ h.fractions, isFraction p = true

/-- A new histogram has the sorted finite bounds and nothing recorded. -/
theorem create_eq {boundaries fractions : List Binary64} {window : Nat} {h : StepHistogram}
    (hcreate : create boundaries fractions window = .ok h) :
    h.bounds = Binary64.sorted (boundaries.filter (!·.isInfinite)) ∧ h.Fresh := by
  unfold create at hcreate
  dsimp only at hcreate
  cases hfind : fractions.find? (!isFraction ·) with
  | some p => rw [hfind] at hcreate; cases hcreate
  | none =>
    rw [hfind] at hcreate
    cases hcreate
    refine ⟨rfl, rfl, fun p hp => ?_⟩
    simpa using List.find?_eq_none.mp hfind p hp

/-- The number of values in each place of a list of bounds. -/
def tallies (bounds values : List Binary64) : List Nat :=
  (List.range bounds.length).map fun j => values.countP fun v => Binary64.placeOf bounds v = j

section Fresh

variable {h : StepHistogram} (hfresh : h.Fresh)

include hfresh

theorem count_recordAll (values : List Binary64) :
    (h.recordAll values).count = values.length := by
  induction values using List.reverseRecOn with
  | nil => exact (congrArg count hfresh.reset_eq).symm
  | append_singleton values v ih =>
    rw [recordAll_concat, List.length_append, List.length_singleton]
    exact congrArg (· + 1) ih

omit hfresh in
theorem length_keepSample {v : Binary64} {samples : List Binary64}
    (hkept : h.keepSample v = .ok samples) :
    samples.length ≤ h.samples.length + 1 ∧
      (h.samples.length ≤ h.window → samples.length ≤ h.window) := by
  unfold keepSample at hkept
  split at hkept
  · cases hkept
    exact ⟨Nat.le_succ _, id⟩
  · split at hkept
    · next hroom =>
      cases hkept
      simp only [List.length_append, List.length_singleton]
      omega
    · split at hkept
      · cases hkept
      · next hold =>
        cases hkept
        simp only [hold, List.length_append, List.length_cons, List.length_nil]
        omega

omit hfresh in
/-- A record adds at most one sample, and none that the window has no room for. -/
theorem length_samples_record (v : Binary64) :
    (h.record v).2.samples.length ≤ h.samples.length + 1 ∧
      (h.samples.length ≤ h.window → (h.record v).2.samples.length ≤ h.window) := by
  simp only [record]
  split
  · next hkept => exact length_keepSample hkept
  · exact ⟨Nat.le_succ _, id⟩

theorem length_samples_recordAll (values : List Binary64) :
    (h.recordAll values).samples.length ≤ values.length := by
  induction values using List.reverseRecOn with
  | nil =>
    rw [show (h.recordAll []).samples = [] from (congrArg samples hfresh.reset_eq).symm]
  | append_singleton values v ih =>
    have hlen := (length_samples_record (h := h.recordAll values) v).1
    rw [recordAll_concat, List.length_append, List.length_singleton]
    omega

theorem counts_recordAll (values : List Binary64) :
    (h.recordAll values).counts = tallies h.bounds values := by
  induction values using List.reverseRecOn with
  | nil =>
    rw [show (h.recordAll []).counts = List.replicate h.bounds.length 0 from
      (congrArg counts hfresh.reset_eq).symm]
    refine List.ext_getElem (by simp [tallies]) fun j _ _ => ?_
    simp [tallies]
  | append_singleton values v ih =>
    rw [recordAll_concat]
    simp only [record, ih, bounds_recordAll]
    refine List.ext_getElem (by simp [tallies]) fun j _ _ => ?_
    rw [List.getElem_modify]
    by_cases hj : Binary64.placeOf h.bounds v = j
    · simp [tallies, hj]
    · simp [tallies, hj]

end Fresh

/-! ## Percentiles -/

theorem isFraction_iff {p : Binary64} :
    isFraction p = true ↔ p.isNaN = false ∧ 0 ≤ p.rank ∧ p.rank ≤ unitsPerOne := by
  have hone : (1 : Binary64).isNaN = false := by decide +kernel
  have hrank : (1 : Binary64).rank = unitsPerOne := by decide +kernel
  have hzero : Binary64.zero.isNaN = false := rfl
  unfold isFraction
  cases hp : p.isNaN with
  | true => simp [Binary64.le, hp]
  | false =>
    rw [Bool.and_eq_true, Binary64.le_iff hzero hp, Binary64.le_iff hp hone, hrank,
      Binary64.rank_zero]
    simp

theorem isFinite_of_isFraction {p : Binary64} (h : isFraction p = true) :
    p.isFinite = true := by
  obtain ⟨hnan, h0, h1⟩ := isFraction_iff.mp h
  have hlt : (unitsPerOne : Int) < unitsAtOverflow := by
    rw [unitsPerOne_eq, unitsAtOverflow_eq]
    exact Int.ofNat_lt.mpr (twoTo_lt (by decide))
  cases p with
  | nan => cases hnan
  | infinite s => cases s <;> simp only [Binary64.rank] at h0 h1 <;> omega
  | finite s m => rfl

/-- The place of a fraction among some samples. -/
def position (n : Nat) (p : Binary64) : Nat :=
  ((p * Binary64.ofInt (n - 1 : Nat)).rank / unitsPerOne).toNat

/-- The double product of one and the last place is exact. -/
def EndExact (n : Nat) : Prop :=
  ((1 : Binary64) * Binary64.ofInt (n - 1 : Nat)).eqInt (n - 1 : Nat) = true

theorem isFraction_one : isFraction 1 = true := by decide +kernel

/-- It is for up to 2^53 + 1 samples, since whole numbers up to 2^53 are doubles. -/
theorem endExact_of_le {n : Nat} (hn : n ≤ twoTo 53 + 1) : EndExact n := by
  have hle : ((n - 1 : Nat) : Int).natAbs ≤ twoTo 53 := by
    rw [Int.natAbs_natCast]
    omega
  have hfinite := Binary64.isFinite_ofInt (Binary64.natAbs_le_of_le_53 hle)
  have hrank : (Binary64.ofInt (n - 1 : Nat)).rank.toNat = (n - 1) * unitsPerOne := by
    rw [Binary64.rank_ofInt hle, ← Int.natCast_mul, Int.toNat_natCast]
  have hrep : Representable ((n - 1) * unitsPerOne) := representable_whole hle
  have hone : (1 : Binary64).rank = unitsPerOne := by decide +kernel
  refine Binary64.eqInt_iff.mpr ⟨Binary64.isFinite_mul_fraction (by decide +kernel) hfinite
    (by rw [hone, Int.natAbs_natCast]), ?_⟩
  rw [Binary64.rank_mul_of_nonneg (by decide +kernel) hfinite (by rw [hone]; omega)
    (Binary64.rank_ofInt_nonneg _), hone, hrank, Int.toNat_natCast, Nat.mul_comm,
    Binary64.nearest_mul_right unitsPerOne_pos hrep, Nat.min_eq_left (Nat.le_of_lt hrep.1),
    Int.natCast_mul]

section Positions

variable {n : Nat} (hend : EndExact n)

include hend

theorem isFinite_end : (Binary64.ofInt (n - 1 : Nat)).isFinite = true :=
  Binary64.isFinite_of_mul (Binary64.eqInt_iff.mp hend).1

theorem toInteger_position {p : Binary64} (hp : isFraction p = true) :
    (p * Binary64.ofInt (n - 1 : Nat)).toInteger = .ok (position n p : Nat) := by
  obtain ⟨-, h0, h1⟩ := isFraction_iff.mp hp
  have hnonneg := Binary64.rank_mul_nonneg h0 (Binary64.rank_ofInt_nonneg (n - 1))
  have hfinite := Binary64.isFinite_mul_fraction (isFinite_of_isFraction hp) (isFinite_end hend)
    (by omega)
  rw [Binary64.toInteger_of_nonneg hfinite hnonneg, position,
    Int.toNat_of_nonneg (Int.ediv_nonneg hnonneg (Int.le_of_lt unitsPerOne_pos_int))]

theorem position_mono {p q : Binary64} (hp : isFraction p = true) (hq : isFraction q = true)
    (hpq : p.le q = true) : position n p ≤ position n q := by
  obtain ⟨hpn, h0, -⟩ := isFraction_iff.mp hp
  obtain ⟨hqn, -, -⟩ := isFraction_iff.mp hq
  have hproducts := Binary64.rank_mul_mono (isFinite_of_isFraction hp) (isFinite_of_isFraction hq)
    (isFinite_end hend) h0 ((Binary64.le_iff hpn hqn).mp hpq)
    (Binary64.rank_ofInt_nonneg (n - 1))
  exact Int.toNat_le_toNat (Int.ediv_le_ediv unitsPerOne_pos_int hproducts)

theorem position_one : position n 1 = n - 1 := by
  rw [position, (Binary64.eqInt_iff.mp hend).2,
    Int.mul_ediv_cancel _ (Int.ne_of_gt unitsPerOne_pos_int), Int.toNat_natCast]

theorem position_lt (hn : 0 < n) {p : Binary64} (hp : isFraction p = true) : position n p < n := by
  have hle := position_mono hend hp isFraction_one (Bool.and_eq_true_iff.mp hp).2
  rw [position_one hend] at hle
  omega

theorem position_of_eq_one {p : Binary64} (hp : isFraction p = true) (h1 : p.eq 1 = true) :
    position n p = n - 1 := by
  have hle : (1 : Binary64).le p = true := by
    simp only [Binary64.eq, Binary64.le, Bool.and_eq_true, decide_eq_true_eq] at h1 ⊢
    exact ⟨⟨h1.1.2, h1.1.1⟩, Int.le_of_eq h1.2.symm⟩
  refine Nat.le_antisymm ?_ ?_
  · rw [← position_one hend]
    exact position_mono hend hp isFraction_one (Bool.and_eq_true_iff.mp hp).2
  · rw [← position_one hend]
    exact position_mono hend isFraction_one hp hle

theorem position_of_isZero {p : Binary64} (hp : isFraction p = true) (h0 : p.isZero = true) :
    position n p = 0 := by
  have hrank : p.rank = 0 := by
    simp only [Binary64.isZero, Binary64.eq, Bool.and_eq_true, decide_eq_true_eq] at h0
    exact h0.2
  rw [position, Binary64.rank_mul_of_nonneg (isFinite_of_isFraction hp) (isFinite_end hend)
    (Int.le_of_eq hrank.symm) (Binary64.rank_ofInt_nonneg _), hrank, Int.toNat_zero, Nat.zero_mul,
    Binary64.nearest_zero unitsPerOne_pos]
  simp

end Positions

theorem valueAt_eq {ordered : List Binary64} (hend : EndExact ordered.length) (hne : ordered ≠ [])
    {p : Binary64} (hp : isFraction p = true) :
    valueAt ordered p = .ok (ordered.getD (position ordered.length p) .zero) := by
  have hlt := position_lt hend (List.length_pos_iff.mpr hne) hp
  simp only [valueAt, toInteger_position hend hp, bind, Except.bind, Int.toNat_natCast,
    List.getElem?_eq_getElem hlt, List.getD_eq_getElem _ _ hlt]
  rfl

theorem exists_mapM {α β : Type} {f : α → Except Fault β} {xs : List α}
    (h : ∀ x ∈ xs, ∃ y, f x = .ok y) : ∃ ys, xs.mapM f = .ok ys := by
  induction xs with
  | nil => exact ⟨[], rfl⟩
  | cons x xs ih =>
    obtain ⟨y, hy⟩ := h x (List.mem_cons_self ..)
    obtain ⟨ys, hys⟩ := ih fun z hz => h z (List.mem_cons_of_mem _ hz)
    exact ⟨y :: ys, by rw [List.mapM_cons, hy, hys]; rfl⟩

theorem exists_percentiles {h : StepHistogram} (hp : ∀ p ∈ h.fractions, isFraction p = true)
    (hlen : h.samples.length ≤ twoTo 53) : ∃ values, h.percentiles = .ok values := by
  by_cases h0 : h.samples = []
  · exact ⟨_, if_pos h0⟩
  · have hperm := Binary64.sorted_perm h.samples
    have hend : EndExact (Binary64.sorted h.samples).length :=
      endExact_of_le (by rw [hperm.length_eq]; omega)
    have hne : Binary64.sorted h.samples ≠ [] := fun hnil =>
      h0 (List.perm_nil.mp (hnil ▸ hperm.symm))
    have hall : ∀ p ∈ h.fractions, ∃ y, (valueAt (Binary64.sorted h.samples) p).map (fun v =>
        (⟨.float p, .float v⟩ : PercentileValue)) = .ok y :=
      fun p hm => ⟨_, congrArg (Except.map _) (valueAt_eq hend hne (hp p hm))⟩
    obtain ⟨values, hvalues⟩ := exists_mapM hall
    exact ⟨values, (if_neg h0).trans hvalues⟩

/-! ## Cumulative counts -/

theorem countP_lt_succ {α : Type} (f : α → Nat) (xs : List α) (m : Nat) :
    xs.countP (fun x => f x < m + 1) =
      xs.countP (fun x => f x < m) + xs.countP (fun x => f x = m) := by
  induction xs with
  | nil => rfl
  | cons x xs ih =>
    simp only [List.countP_cons, ih, decide_eq_true_eq]
    rcases Nat.lt_trichotomy (f x) m with hlt | heq | hgt
    · rw [if_pos (by omega), if_pos hlt, if_neg (by omega)]
      omega
    · rw [if_pos (by omega), if_neg (by omega), if_pos heq]
      omega
    · rw [if_neg (by omega), if_neg (by omega), if_neg (by omega)]
      omega

/-- The tallies together count the values that have a place. -/
theorem sum_tallies (bounds values : List Binary64) :
    (tallies bounds values).sum =
      values.countP fun v => Binary64.placeOf bounds v < bounds.length := by
  unfold tallies
  generalize bounds.length = m
  induction m with
  | zero => simp
  | succ m ih =>
    rw [List.range_succ, List.map_append, List.sum_append, ih, countP_lt_succ]
    rfl

theorem length_tallies (bounds values : List Binary64) :
    (tallies bounds values).length = bounds.length := by
  simp [tallies]

theorem length_runningTotals (start : Nat) (counts : List Nat) :
    (runningTotals start counts).length = counts.length := by
  induction counts generalizing start with
  | nil => rfl
  | cons n rest ih => simp [runningTotals, ih]

theorem runningTotals_le (start : Nat) (counts : List Nat) :
    ∀ t ∈ runningTotals start counts, t ≤ start + counts.sum := by
  induction counts generalizing start with
  | nil => intro t ht; cases ht
  | cons n rest ih =>
    intro t ht
    rw [List.sum_cons]
    rcases List.mem_cons.mp ht with rfl | ht
    · omega
    · have := ih (start + n) t ht
      omega

/-- The buckets of bounds and running totals. -/
def bucketsFrom (start : Nat) (bounds : List Binary64) (counts : List Nat) : List Bucket :=
  (bounds.zip (runningTotals start counts)).map fun p => ⟨p.1, .int p.2⟩

theorem bounds_bucketsFrom {start : Nat} {bounds : List Binary64} {counts : List Nat}
    (h : bounds.length = counts.length) :
    (bucketsFrom start bounds counts).map (·.bound) = bounds := by
  rw [bucketsFrom, List.map_map]
  exact List.map_fst_zip (Nat.le_of_eq (h.trans (length_runningTotals start counts).symm))

theorem wholeCounts_bucketsFrom {start : Nat} {bounds : List Binary64} {counts : List Nat}
    (h : bounds.length = counts.length) :
    Distribution.WholeCounts (bucketsFrom start bounds counts)
      ((runningTotals start counts).map Int.ofNat) := by
  induction counts generalizing start bounds with
  | nil =>
    rw [List.length_eq_zero_iff.mp h]
    exact .nil
  | cons n rest ih =>
    cases bounds with
    | nil => cases h
    | cons b bounds =>
      refine .cons ?_ (ih (Nat.succ.inj h))
      simp [Value.Number.eqInt]

theorem growths_runningTotals (start : Nat) (counts : List Nat) :
    Distribution.growths start ((runningTotals start counts).map Int.ofNat) =
      counts.map Int.ofNat := by
  induction counts generalizing start with
  | nil => rfl
  | cons n rest ih =>
    have hn : (Int.ofNat (start + n) : Int) - start = Int.ofNat n := by simp
    simp only [runningTotals, List.map_cons, Distribution.growths, hn]
    exact congrArg _ (ih (start + n))

/-- The distribution of a histogram whose cumulative counts are running totals has the counts
that were added up. -/
theorem ofHistogram_bucketsFrom {histogram : Histogram} {bounds : List Binary64}
    {counts : List Nat} (hne : bounds ≠ []) (hlen : bounds.length = counts.length)
    (hbuckets : histogram.buckets = bucketsFrom 0 bounds counts) (hsum : counts.sum ≤ 2 ^ 53)
    (hcount : histogram.count < 2 ^ 1023) (timed : Bool) :
    ∃ mean, Distribution.ofHistogram histogram timed = .ok ⟨histogram.count, mean,
      (bounds.take (Distribution.trimEmpty (counts.map Int.ofNat)).length).map
        (Distribution.scale timed),
      Distribution.trimEmpty (counts.map Int.ofNat) ++
        [histogram.count - (counts.map Int.ofNat).sum]⟩ := by
  have hbounds : histogram.buckets.map (·.bound) = bounds := by
    rw [hbuckets]
    exact bounds_bucketsFrom hlen
  have hfilled : histogram.buckets ≠ [] := by
    intro hnil
    rw [hnil] at hbounds
    exact hne hbounds.symm
  have hwhole : Distribution.WholeCounts histogram.buckets
      ((runningTotals 0 counts).map Int.ofNat) := by
    rw [hbuckets]
    exact wholeCounts_bucketsFrom hlen
  have hle : ∀ c ∈ (runningTotals 0 counts).map Int.ofNat, c ≤ 2 ^ 53 := by
    intro c hc
    obtain ⟨t, ht, rfl⟩ := List.mem_map.mp hc
    have := runningTotals_le 0 counts t ht
    exact Int.ofNat_le.mpr (show t ≤ 2 ^ 53 by omega)
  obtain ⟨mean, -, heq⟩ := Distribution.ofHistogram_whole timed hfilled hwhole hle hcount
  have hgrow : Distribution.growths 0 ((runningTotals 0 counts).map Int.ofNat) =
      counts.map Int.ofNat := growths_runningTotals 0 counts
  have hscaled : histogram.buckets.map (fun b => Distribution.scale timed b.bound) =
      bounds.map (Distribution.scale timed) := by
    rw [← hbounds, List.map_map]
    rfl
  rw [hgrow, List.map_take, hscaled, ← List.map_take] at heq
  exact ⟨_, heq⟩

theorem bucketFault_bucketsFrom {count start : Nat} {bounds : List Binary64}
    {counts : List Nat} (hlen : bounds.length = counts.length)
    (hsum : start + counts.sum ≤ count) {previous : Value.Number}
    (hp : previous.eqInt start = true) :
    bucketFault count previous (bucketsFrom start bounds counts) = none := by
  obtain ⟨hfin, hunits⟩ := Value.Number.eqInt_iff.mp hp
  have hone := Int.le_of_lt unitsPerOne_pos_int
  induction counts generalizing start bounds previous with
  | nil =>
    rw [List.length_eq_zero_iff.mp hlen]
    refine (bucketFault_nil hfin).mpr ?_
    rw [hunits]
    exact Int.mul_le_mul_of_nonneg_right (by omega) hone
  | cons n rest ih =>
    cases bounds with
    | nil => cases hlen
    | cons b bounds =>
      rw [List.sum_cons] at hsum
      have hnext : (Value.Number.int ((start + n : Nat) : Int)).eqInt (start + n : Nat) = true := by
        simp [Value.Number.eqInt]
      obtain ⟨hfin', hunits'⟩ := Value.Number.eqInt_iff.mp hnext
      refine (bucketFault_cons hfin hfin').mpr
        ⟨?_, ih (Nat.succ.inj hlen) (by omega) hnext hfin' hunits'⟩
      rw [hunits, hunits']
      exact Int.mul_le_mul_of_nonneg_right (by omega) hone

/-! ## Snapshots -/

/-- What every histogram keeps through a step: valid percentiles, and counts that the number
of observations covers. -/
structure Sound (h : StepHistogram) : Prop where
  isFraction : ∀ p ∈ h.fractions, isFraction p = true
  length_counts : h.counts.length = h.bounds.length
  sum_counts : h.counts.sum ≤ h.count

section Sound

variable {h : StepHistogram} (hsound : h.Sound)

include hsound

/-- The snapshot of a step whose percentiles can be read. Its cumulative counts are running totals,
which pass the checks also where NaN was recorded. -/
theorem Sound.view_eq {percentiles : List PercentileValue}
    (hpercentiles : h.percentiles = .ok percentiles) :
    ∃ hcheck, h.view = .ok ⟨h.count, h.total, h.max, percentiles, h.cumulative, hcheck⟩ := by
  have hzero : (Value.Number.float .zero).eqInt (0 : Nat) = true := by decide +kernel
  have hcheck : checkBuckets h.count h.cumulative = none := by
    rw [checkBuckets]
    split
    · rfl
    · exact bucketFault_bucketsFrom hsound.length_counts.symm
        (by rw [Nat.zero_add]; exact hsound.sum_counts) hzero
  refine ⟨hcheck, ?_⟩
  rw [view, hpercentiles]
  exact Histogram.make_eq hcheck

/-- **Snapshots exist**, also where NaN was recorded, and their cumulative counts are running
totals. -/
theorem Sound.exists_view (hlen : h.samples.length ≤ twoTo 53) :
    ∃ histogram, h.view = .ok histogram ∧ histogram.count = h.count ∧
      histogram.buckets = bucketsFrom 0 h.bounds h.counts := by
  obtain ⟨percentiles, hpercentiles⟩ := exists_percentiles hsound.isFraction hlen
  obtain ⟨_, hview⟩ := hsound.view_eq hpercentiles
  exact ⟨_, hview, rfl, rfl⟩

omit hsound in
theorem sum_modify_succ_le (counts : List Nat) (i : Nat) :
    (counts.modify i (· + 1)).sum ≤ counts.sum + 1 := by
  induction counts generalizing i with
  | nil => simp
  | cons n rest ih =>
    cases i with
    | zero =>
      simp only [List.modify_zero_cons, List.sum_cons]
      omega
    | succ i =>
      have := ih i
      simp only [List.modify_succ_cons, List.sum_cons]
      omega

theorem Sound.record (v : Binary64) : (h.record v).2.Sound where
  isFraction := hsound.isFraction
  length_counts := by
    rw [StepHistogram.record, List.length_modify]
    exact hsound.length_counts
  sum_counts := Nat.le_trans (sum_modify_succ_le _ _) (Nat.succ_le_succ hsound.sum_counts)

theorem Sound.reset : h.reset.Sound where
  isFraction := hsound.isFraction
  length_counts := List.length_replicate
  sum_counts := by simp [StepHistogram.reset]

end Sound

theorem Fresh.sound_recordAll {h : StepHistogram} (hfresh : h.Fresh) (values : List Binary64) :
    (h.recordAll values).Sound where
  isFraction := by
    rw [fractions_recordAll]
    exact hfresh.isFraction
  length_counts := by rw [counts_recordAll hfresh, bounds_recordAll, length_tallies]
  sum_counts := by
    rw [counts_recordAll hfresh, count_recordAll hfresh, sum_tallies]
    exact List.countP_le_length

theorem exists_view {h : StepHistogram} (hfresh : h.Fresh) {values : List Binary64}
    (hlen : values.length ≤ twoTo 53) :
    ∃ histogram, (h.recordAll values).view = .ok histogram ∧
      histogram.count = values.length ∧
      histogram.buckets = bucketsFrom 0 h.bounds (tallies h.bounds values) := by
  obtain ⟨histogram, hview, hcount, hbuckets⟩ := (hfresh.sound_recordAll values).exists_view
    (Nat.le_trans (length_samples_recordAll hfresh values) hlen)
  rw [count_recordAll hfresh] at hcount
  rw [counts_recordAll hfresh, bounds_recordAll] at hbuckets
  exact ⟨histogram, hview, hcount, hbuckets⟩

end Telemetry.StepHistogram

import Telemetry.Proofs.Series.Trimming
import Telemetry.Proofs.Value.Number

/-!
Distributions of histograms, whatever cumulative counts a histogram was accepted with.

Proved here, for counts up to 2^53:

* `differences_spec`: the counts per bucket exist, are not negative and together at most
  the number of observations, also where cumulative counts are fractional and their
  differences are rounded;
* `ofHistogram_of_buckets`: the distribution has as many bounds as counts are kept;
* `ofHistogram_conserves`: the counts of a distribution sum to the observations.
-/

namespace Telemetry

theorem natCast_twoTo (n : Nat) : ((twoTo n : Nat) : Int) = 2 ^ n := by
  rw [twoTo_eq_pow, Int.natCast_pow]
  rfl

/-! ## Accepted counts -/

theorem bucketFault_nil {count : Int} {previous : Value.Number}
    (hp : previous.isFinite = true) :
    bucketFault count previous [] = none ↔ previous.units ≤ count * unitsPerOne := by
  rw [← Int.not_lt, ← Value.Number.gtInt_iff hp]
  cases h : previous.gtInt count <;> simp [bucketFault, h]

theorem bucketFault_cons {count : Int} {previous : Value.Number} {b : Bucket}
    {rest : List Bucket} (hp : previous.isFinite = true) (hb : b.atOrBelow.isFinite = true) :
    bucketFault count previous (b :: rest) = none ↔
      previous.units ≤ b.atOrBelow.units ∧ bucketFault count b.atOrBelow rest = none := by
  rw [← Int.not_lt, ← Value.Number.less_iff hb hp]
  cases h : b.atOrBelow.less previous <;> simp [bucketFault, h]

theorem Histogram.bucketFault_eq (h : Histogram) (hne : h.buckets ≠ []) :
    bucketFault h.count (.float .zero) h.buckets = none := by
  have := h.accepted
  rwa [checkBuckets, if_neg hne] at this

theorem Histogram.make_eq {count : Int} {total : Binary64} {max : Value.Number}
    {percentiles : List PercentileValue} {buckets : List Bucket}
    (h : checkBuckets count buckets = none) :
    Histogram.make count total max percentiles buckets =
      .ok ⟨count, total, max, percentiles, buckets, h⟩ := by
  unfold Histogram.make
  split
  · rfl
  · next fault hf => rw [h] at hf; cases hf

theorem Histogram.buckets_of_make {count : Int} {total : Binary64} {max : Value.Number}
    {percentiles : List PercentileValue} {buckets : List Bucket} {h : Histogram}
    (hmake : Histogram.make count total max percentiles buckets = .ok h) :
    h.buckets = buckets := by
  unfold make at hmake
  split at hmake
  · cases hmake
    rfl
  · cases hmake

theorem Histogram.exists_mean {h : Histogram} (hpos : 0 ≤ h.count)
    (hcount : h.count < 2 ^ 1023) : ∃ mean, h.mean = .ok mean := by
  by_cases h0 : h.count = 0
  · exact ⟨.zero, if_pos h0⟩
  · rw [← natCast_twoTo] at hcount
    refine ⟨h.total / Binary64.ofInt h.count, ?_⟩
    rw [Histogram.mean, if_neg h0, Binary64.ofIntWithin_eq (by omega)]
    rfl

namespace Distribution

/-! ## Counts per bucket -/

theorem differences_cons {previous growth : Value.Number} {b : Bucket} {rest : List Bucket}
    {n : Int} {later : List Int} (hsub : b.atOrBelow.sub previous = .ok growth)
    (hn : growth.toInteger = .ok n) (hlater : differences b.atOrBelow rest = .ok later) :
    differences previous (b :: rest) = .ok (n :: later) := by
  rw [differences, hsub]
  simp only [bind, Except.bind, hn, hlater]
  rfl

/-- A cumulative count that is finite and at most 2^53. -/
def WithinDoubles (b : Bucket) : Prop :=
  b.atOrBelow.isFinite = true ∧ b.atOrBelow.leInt (2 ^ 53) = true

instance (b : Bucket) : Decidable (WithinDoubles b) := inferInstanceAs (Decidable (_ ∧ _))

theorem WithinDoubles.units_le {b : Bucket} (h : WithinDoubles b) :
    b.atOrBelow.units ≤ (twoTo 53 * unitsPerOne : Nat) := by
  rw [Int.natCast_mul, natCast_twoTo]
  exact (Value.Number.leInt_iff h.1 _).mp h.2

/-- The invariant of the differences: the integer part of the count before, and what
the differences from there on sum to, are within the observations. -/
theorem differences_spec {count : Int} {buckets : List Bucket} :
    ∀ {previous : Value.Number}, previous.isFinite = true → 0 ≤ previous.units →
      (∀ b ∈ buckets, WithinDoubles b) → bucketFault count previous buckets = none →
      ∃ counts, differences previous buckets = .ok counts ∧
        counts.length = buckets.length ∧ (∀ n ∈ counts, 0 ≤ n) ∧
        previous.floor + counts.sum ≤ count := by
  induction buckets with
  | nil =>
    intro previous hfin _ _ hfault
    refine ⟨[], rfl, rfl, by simp, ?_⟩
    have hpos := unitsPerOne_pos_int
    have hle := Int.ediv_le_ediv hpos ((bucketFault_nil hfin).mp hfault)
    rw [Int.mul_ediv_cancel _ (Int.ne_of_gt hpos)] at hle
    simpa [Value.Number.floor] using hle
  | cons b rest ih =>
    intro previous hfin h0 hb hfault
    have hbound := hb b (List.mem_cons_self ..)
    obtain ⟨hge, hrest⟩ := (bucketFault_cons hfin hbound.1).mp hfault
    obtain ⟨growth, n, hsub, hn, hn0, hnle⟩ :=
      Value.Number.sub_toInteger hbound.1 hfin h0 hge hbound.units_le
    obtain ⟨later, hlater, hlen, hnonneg, hsum⟩ := ih hbound.1 (by omega)
      (fun b hm => hb b (List.mem_cons_of_mem _ hm)) hrest
    refine ⟨n :: later, differences_cons hsub hn hlater, by simp [hlen], ?_, ?_⟩
    · intro m hm
      rcases List.mem_cons.mp hm with rfl | hm
      · exact hn0
      · exact hnonneg m hm
    · rw [List.sum_cons]
      omega

/-! ## Conservation -/

theorem ofHistogram_eq {h : Histogram} {timed : Bool} {counts : List Int} {mean : Binary64}
    (hcounts : differences (.float .zero) h.buckets = .ok counts) (hmean : h.mean = .ok mean) :
    ofHistogram h timed = .ok
      (if (h.buckets.map fun b => scale timed b.bound).take (trimEmpty counts).length = [] then
        ⟨h.count, scale timed mean, [.zero], [0, max 0 (h.count - counts.sum)]⟩
      else
        ⟨h.count, scale timed mean,
          (h.buckets.map fun b => scale timed b.bound).take (trimEmpty counts).length,
          trimEmpty counts ++ [max 0 (h.count - counts.sum)]⟩) := by
  rw [ofHistogram, hcounts, hmean]
  simp only [bind, Except.bind, pure, Except.pure]
  split <;> rfl

/-- A histogram that is encoded has counts per bucket and a mean; the bounds are those of the first
buckets. -/
theorem ofHistogram_inv {h : Histogram} {timed : Bool} {d : Distribution}
    (hd : ofHistogram h timed = .ok d) :
    ∃ counts mean, differences (.float .zero) h.buckets = .ok counts ∧ h.mean = .ok mean ∧
      d.mean = scale timed mean ∧
      (d.bounds = [.zero] ∨
        ∃ k, d.bounds = (h.buckets.map fun b => scale timed b.bound).take k) := by
  obtain ⟨counts, hcounts, hrest⟩ := Fault.exists_of_bind_eq_ok hd
  obtain ⟨mean, hmean, -⟩ := Fault.exists_of_bind_eq_ok hrest
  rw [ofHistogram_eq hcounts hmean, Except.ok.injEq] at hd
  subst hd
  refine ⟨counts, mean, hcounts, hmean, ?_⟩
  split
  · exact ⟨rfl, Or.inl rfl⟩
  · exact ⟨rfl, Or.inr ⟨_, rfl⟩⟩

/-- The distribution of a histogram with at least one bucket: as many bounds as counts are
kept, and the overflow after them. -/
theorem ofHistogram_of_buckets {h : Histogram} {timed : Bool} {counts : List Int}
    {mean : Binary64} (hne : h.buckets ≠ []) (hlen : counts.length = h.buckets.length)
    (hcounts : differences (.float .zero) h.buckets = .ok counts) (hmean : h.mean = .ok mean) :
    ∃ bounds,
      bounds = (h.buckets.take (trimEmpty counts).length).map (fun b => scale timed b.bound) ∧
      bounds.length = (trimEmpty counts).length ∧ 0 < bounds.length ∧
      ofHistogram h timed = .ok ⟨h.count, scale timed mean, bounds,
        trimEmpty counts ++ [max 0 (h.count - counts.sum)]⟩ := by
  have hfilled : counts ≠ [] := by
    rw [← List.length_pos_iff, hlen]
    exact List.length_pos_iff.mpr hne
  have hkept := trimEmpty_length_pos hfilled
  have hlength : ((h.buckets.take (trimEmpty counts).length).map
      fun b => scale timed b.bound).length = (trimEmpty counts).length := by
    rw [List.length_map, List.length_take, ← hlen]
    exact Nat.min_eq_left (trimEmpty_isPrefix counts).length_le
  refine ⟨_, rfl, hlength, by rw [hlength]; exact hkept, ?_⟩
  rw [ofHistogram_eq hcounts hmean, ← List.map_take, if_neg]
  intro hnil
  rw [hnil, List.length_nil] at hlength
  omega

/-- **Conservation.** A histogram has a distribution with one count more than bounds, none
of them negative, whose sum is the number of observations: no count is lost by trimming or
by rounding, and the overflow is never cut off at zero. Bounds in seconds become
milliseconds. -/
theorem ofHistogram_conserves (h : Histogram) (timed : Bool) (hpos : 0 ≤ h.count)
    (hcount : h.count < 2 ^ 1023) (hb : ∀ b ∈ h.buckets, WithinDoubles b) :
    ∃ d perBucket, ofHistogram h timed = .ok d ∧
      0 < d.bounds.length ∧ d.counts.length = d.bounds.length + 1 ∧
      (∀ n ∈ d.counts, 0 ≤ n) ∧ d.counts.sum = h.count ∧
      differences (.float .zero) h.buckets = .ok perBucket ∧
      (trimEmpty perBucket).sum = perBucket.sum ∧ perBucket.sum ≤ h.count ∧
      (h.buckets = [] → d.bounds = [.zero] ∧ d.counts = [0, h.count]) ∧
      (h.buckets ≠ [] →
        d.bounds = (h.buckets.take d.bounds.length).map
          (fun b => if timed then b.bound * 1000 else b.bound) ∧
        d.counts = trimEmpty perBucket ++ [h.count - perBucket.sum]) := by
  obtain ⟨mean, hmean⟩ := Histogram.exists_mean hpos hcount
  by_cases hne : h.buckets = []
  · have hcounts : differences (.float .zero) h.buckets = .ok [] := by rw [hne]; rfl
    have hnone : (h.buckets.map fun b => scale timed b.bound).take (trimEmpty []).length = [] := by
      rw [hne]; rfl
    have hsum : h.count - ([] : List Int).sum = h.count := Int.sub_zero _
    have heq : ofHistogram h timed = _ := ofHistogram_eq hcounts hmean
    rw [if_pos hnone, hsum, Int.max_eq_right hpos] at heq
    refine ⟨_, [], heq, Nat.one_pos, rfl, ?_, ?_, hcounts, rfl, hpos, fun _ => ⟨rfl, rfl⟩,
      fun hfilled => absurd hne hfilled⟩
    · simp [hpos]
    · simp
  · have h0 : 0 ≤ (Value.Number.float .zero).units := Int.le_refl 0
    obtain ⟨counts, hcounts, hlen, hnonneg, hsum⟩ :=
      differences_spec rfl h0 hb (h.bucketFault_eq hne)
    have hle : counts.sum ≤ h.count := by
      simpa [Value.Number.floor, Value.Number.units] using hsum
    have htrim := sum_trimEmpty hnonneg
    obtain ⟨bounds, hbounds, hlength, hpos, heq⟩ := ofHistogram_of_buckets hne hlen hcounts hmean
    rw [Int.max_eq_right (by omega)] at heq
    refine ⟨_, counts, heq, hpos, ?_, ?_, ?_, hcounts, htrim, hle, fun hnil => absurd hnil hne,
      fun _ => ⟨?_, rfl⟩⟩
    · rw [List.length_append, List.length_singleton, hlength]
    · intro n hn
      rcases List.mem_append.mp hn with hn | hn
      · exact hnonneg n ((trimEmpty_isPrefix counts).subset hn)
      · rw [List.mem_singleton.mp hn]
        omega
    · rw [List.sum_append, htrim, List.sum_singleton]
      omega
    · rw [hlength]
      exact hbounds

/-- Fractional counts beside whole ones, with an empty bucket at the end. -/
def fractionalBuckets : List Bucket :=
  [⟨1, .float (1 / 2)⟩, ⟨2, .float 2⟩, ⟨5, .int 3⟩, ⟨9, .int 3⟩]

def fractionalHistogram : Histogram :=
  ⟨4, 6, .float 4, [], fractionalBuckets, by decide +kernel⟩

theorem ofHistogram_conserves_fractional :
    (∀ b ∈ fractionalHistogram.buckets, WithinDoubles b) ∧
    ∃ d perBucket, ofHistogram fractionalHistogram true = .ok d ∧
      0 < d.bounds.length ∧ d.counts.length = d.bounds.length + 1 ∧
      (∀ n ∈ d.counts, 0 ≤ n) ∧ d.counts.sum = 4 ∧
      differences (.float .zero) fractionalBuckets = .ok perBucket ∧
      (trimEmpty perBucket).sum = perBucket.sum ∧ perBucket.sum ≤ 4 ∧
      d.counts = trimEmpty perBucket ++ [4 - perBucket.sum] ∧ d.bounds = [1000, 2000, 5000] := by
  have hb : ∀ b ∈ fractionalHistogram.buckets, WithinDoubles b := by decide +kernel
  have hne : fractionalHistogram.buckets ≠ [] := by decide
  obtain ⟨d, perBucket, hd, hpos, hlen, hnonneg, hsum, hcounts, htrim, hle, -, hfilled⟩ :=
    ofHistogram_conserves fractionalHistogram true (by decide) (by decide +kernel) hb
  have hbounds : (ofHistogram fractionalHistogram true).toOption.map (·.bounds) =
      some [1000, 2000, 5000] := by decide +kernel
  rw [hd] at hbounds
  exact ⟨hb, d, perBucket, hd, hpos, hlen, hnonneg, hsum, hcounts, htrim, hle, (hfilled hne).2,
    Option.some.inj hbounds⟩

end Distribution
end Telemetry

import Mathlib.Algebra.Order.BigOperators.Group.List
import Mathlib.Data.List.Forall2
import Telemetry.Proofs.Series.Distribution

/-!
Histograms whose cumulative counts are whole numbers, as those of the library's own meters.

Proved here:

* `differences_whole`: the counts per bucket are the exact differences;
* `bucketFault_append`: buckets that hold the last count again are accepted after it;
* `ofHistogram_lossless`: the cumulative counts are the running sums of the distribution,
  which keeps the shortest prefix of the bounds that has every observation.
-/

namespace Telemetry.Distribution

/-! ## Whole cumulative counts -/

/-- The buckets have whole cumulative counts. -/
def WholeCounts (buckets : List Bucket) (cumulative : List Int) : Prop :=
  List.Forall₂ (fun b c => b.atOrBelow.eqInt c = true) buckets cumulative

/-- The counts per bucket of whole cumulative counts. -/
def growths : Int → List Int → List Int
  | _, [] => []
  | previous, c :: later => (c - previous) :: growths c later

theorem length_growths (p : Int) (cs : List Int) : (growths p cs).length = cs.length := by
  induction cs generalizing p with
  | nil => rfl
  | cons c cs ih => simp [growths, ih]

theorem getD_growths (p : Int) (cs : List Int) (j : Nat) (hj : j < cs.length) :
    (growths p cs).getD j 0 = cs.getD j 0 - (p :: cs).getD j 0 := by
  induction cs generalizing p j with
  | nil => exact absurd hj (Nat.not_lt_zero j)
  | cons c cs ih =>
    cases j with
    | zero => rfl
    | succ j => exact ih c j (Nat.lt_of_succ_lt_succ hj)

theorem sum_take_growths (p : Int) (cs : List Int) (i : Nat) (hi : i < cs.length) :
    ((growths p cs).take (i + 1)).sum = cs[i] - p := by
  induction cs generalizing p i with
  | nil => exact absurd hi (Nat.not_lt_zero i)
  | cons c cs ih =>
    cases i with
    | zero => simp [growths]
    | succ i =>
      have := ih c i (Nat.lt_of_succ_lt_succ hi)
      simp only [growths, List.take_succ_cons, List.sum_cons, this, List.getElem_cons_succ]
      omega

theorem growths_append (p : Int) (cs later : List Int) :
    growths p (cs ++ later) = growths p cs ++ growths (cs.getLastD p) later := by
  induction cs generalizing p with
  | nil => rfl
  | cons c cs ih =>
    simp only [List.cons_append, growths, ih]
    cases cs <;> rfl

theorem growths_replicate (c : Int) (n : Nat) :
    growths c (List.replicate n c) = List.replicate n 0 := by
  induction n with
  | zero => rfl
  | succ n ih => simp [List.replicate_succ, growths, ih]

theorem withinDoubles_of_eqInt {b : Bucket} {c : Int} (h : b.atOrBelow.eqInt c = true)
    (hc : c ≤ 2 ^ 53) : WithinDoubles b := by
  obtain ⟨hfin, hunits⟩ := Value.Number.eqInt_iff.mp h
  refine ⟨hfin, (Value.Number.leInt_iff hfin _).mpr ?_⟩
  rw [hunits]
  exact Int.mul_le_mul_of_nonneg_right hc (Int.le_of_lt unitsPerOne_pos_int)

theorem withinDoubles_of_wholeCounts {buckets : List Bucket} {cs : List Int}
    (h : WholeCounts buckets cs) (hle : ∀ c ∈ cs, c ≤ 2 ^ 53) :
    ∀ b ∈ buckets, WithinDoubles b := by
  induction h with
  | nil => intro b hb; cases hb
  | cons hbc _ ih =>
    intro b hb
    rcases List.mem_cons.mp hb with rfl | hb
    · exact withinDoubles_of_eqInt hbc (hle _ (List.mem_cons_self ..))
    · exact ih (fun c hc => hle c (List.mem_cons_of_mem _ hc)) b hb

theorem differences_whole {count : Int} {buckets : List Bucket} {cs : List Int}
    (h : WholeCounts buckets cs) :
    ∀ {previous : Value.Number} {p : Int}, previous.eqInt p = true → 0 ≤ previous.units →
      (∀ c ∈ cs, c ≤ 2 ^ 53) → bucketFault count previous buckets = none →
      differences previous buckets = .ok (growths p cs) := by
  induction h with
  | nil => intros; rfl
  | @cons b c rest later hbc _ ih =>
    intro previous p hp h0 hle hfault
    have hbound := withinDoubles_of_eqInt hbc (hle c (List.mem_cons_self ..))
    have hfin := (Value.Number.eqInt_iff.mp hp).1
    obtain ⟨hge, hrest⟩ := (bucketFault_cons hfin hbound.1).mp hfault
    obtain ⟨growth, hsub, hn⟩ :=
      Value.Number.sub_toInteger_whole hbound.1 hfin h0 hge hbound.units_le hbc hp
    exact differences_cons hsub hn
      (ih hbc (by omega) (fun c hc => hle c (List.mem_cons_of_mem _ hc)) hrest)

/-! ## More buckets after the last -/

private theorem bucketFault_constant {count c : Int} {extra : List Bucket}
    (hextra : ∀ b ∈ extra, b.atOrBelow.eqInt c = true) {previous : Value.Number}
    (hp : previous.eqInt c = true) (h : bucketFault count previous [] = none) :
    bucketFault count previous extra = none := by
  induction extra generalizing previous with
  | nil => exact h
  | cons b rest ih =>
    have hb := hextra b (List.mem_cons_self ..)
    obtain ⟨hbf, hbu⟩ := Value.Number.eqInt_iff.mp hb
    obtain ⟨hpf, hpu⟩ := Value.Number.eqInt_iff.mp hp
    refine (bucketFault_cons hpf hbf).mpr
      ⟨by omega, ih (fun b hm => hextra b (List.mem_cons_of_mem _ hm)) hb ?_⟩
    rw [bucketFault_nil hpf] at h
    rw [bucketFault_nil hbf, hbu, ← hpu]
    exact h

theorem bucketFault_append {count c : Int} {buckets extra : List Bucket} {cs : List Int}
    (h : WholeCounts buckets cs) (hextra : ∀ b ∈ extra, b.atOrBelow.eqInt c = true) :
    ∀ {previous : Value.Number} {p : Int}, previous.eqInt p = true → cs.getLastD p = c →
      bucketFault count previous buckets = none →
      bucketFault count previous (buckets ++ extra) = none := by
  induction h with
  | nil =>
    intro previous p hp hlast hfault
    exact bucketFault_constant hextra (hlast ▸ hp) hfault
  | @cons b c' rest later hbc _ ih =>
    intro previous p hp hlast hfault
    have hpf := (Value.Number.eqInt_iff.mp hp).1
    have hbf := (Value.Number.eqInt_iff.mp hbc).1
    obtain ⟨hge, hrest⟩ := (bucketFault_cons hpf hbf).mp hfault
    refine (bucketFault_cons hpf hbf).mpr ⟨hge, ih hbc ?_ hrest⟩
    rwa [List.getLastD_cons] at hlast

theorem WholeCounts.append {buckets extra : List Bucket} {cs : List Int} {c : Int}
    (h : WholeCounts buckets cs) (hextra : ∀ b ∈ extra, b.atOrBelow.eqInt c = true) :
    WholeCounts (buckets ++ extra) (cs ++ List.replicate extra.length c) := by
  refine List.rel_append h ?_
  induction extra with
  | nil => exact .nil
  | cons b rest ih =>
    exact .cons (hextra b (List.mem_cons_self ..))
      (ih fun b hm => hextra b (List.mem_cons_of_mem _ hm))

/-! ## Reading the counts back -/

theorem sum_take_of_covers {counts : List Int} {k : Nat} (h : Covers counts k) (i : Nat) :
    (counts.take i).sum = (counts.take (min i k)).sum := by
  induction i with
  | zero => simp
  | succ i ih =>
    by_cases hle : i + 1 ≤ k
    · rw [Nat.min_eq_left hle]
    · have h0 := h.2 i (by omega)
      rw [List.getD_eq_getElem?_getD] at h0
      rw [Nat.min_eq_right (by omega)] at ih
      rw [Nat.min_eq_right (by omega), ← ih, List.take_add_one, List.sum_append]
      cases hi : counts[i]? with
      | none => simp
      | some n =>
        rw [hi] at h0
        simpa using h0

/-- A prefix covers the counts per bucket if no cumulative count grows after it. -/
theorem covers_growths_iff (cs : List Int) (k : Nat) :
    Covers (growths 0 cs) k ↔
      0 < k ∧ ∀ j, j < cs.length → cs.getD j 0 - (0 :: cs).getD j 0 ≠ 0 → j < k := by
  constructor
  · rintro ⟨hk, h⟩
    refine ⟨hk, fun j hj hne => Nat.not_le.mp fun hle => hne ?_⟩
    rw [← getD_growths 0 cs j hj]
    exact h j hle
  · rintro ⟨hk, h⟩
    refine ⟨hk, fun j hle => ?_⟩
    by_cases hj : j < cs.length
    · rw [getD_growths 0 cs j hj]
      by_contra hne
      exact absurd (h j hj hne) (Nat.not_lt.mpr hle)
    · exact List.getD_eq_default _ _ (by rw [length_growths]; exact Nat.not_lt.mp hj)

section Lossless

variable {h : Histogram} (timed : Bool) {cs : List Int} (hne : h.buckets ≠ [])
  (hcs : WholeCounts h.buckets cs) (hle : ∀ c ∈ cs, c ≤ 2 ^ 53)

include hne hcs hle

theorem growths_spec :
    differences (.float .zero) h.buckets = .ok (growths 0 cs) ∧
      (∀ n ∈ growths 0 cs, 0 ≤ n) ∧ (growths 0 cs).sum ≤ h.count := by
  have h0 : 0 ≤ (Value.Number.float .zero).units := Int.le_refl 0
  have hzero : (Value.Number.float .zero).eqInt 0 = true := by decide +kernel
  have hfault := h.bucketFault_eq hne
  have heq := differences_whole hcs hzero h0 hle hfault
  obtain ⟨counts, hcounts, -, hnonneg, hsum⟩ :=
    differences_spec rfl h0 (withinDoubles_of_wholeCounts hcs hle) hfault
  rw [heq] at hcounts
  cases hcounts
  exact ⟨heq, hnonneg, by simpa [Value.Number.floor, Value.Number.units] using hsum⟩

theorem ofHistogram_whole (hcount : h.count < 2 ^ 1023) :
    ∃ mean, h.mean = .ok mean ∧
      ofHistogram h timed = .ok ⟨h.count, scale timed mean,
        (h.buckets.take (trimEmpty (growths 0 cs)).length).map (fun b => scale timed b.bound),
        trimEmpty (growths 0 cs) ++ [h.count - (growths 0 cs).sum]⟩ := by
  obtain ⟨hdiff, hnonneg, hsum⟩ := growths_spec hne hcs hle
  have hpos : 0 ≤ h.count := Int.le_trans (List.sum_nonneg hnonneg) hsum
  obtain ⟨mean, hmean⟩ := Histogram.exists_mean hpos hcount
  have hlen : (growths 0 cs).length = h.buckets.length := by
    rw [length_growths]
    exact hcs.length_eq.symm
  obtain ⟨bounds, rfl, -, -, heq⟩ := ofHistogram_of_buckets hne hlen hdiff hmean
  rw [Int.max_eq_right (by omega)] at heq
  exact ⟨mean, hmean, heq⟩

omit hne hle in
theorem length_trimEmpty_le : (trimEmpty (growths 0 cs)).length ≤ h.buckets.length := by
  rw [hcs.length_eq, ← length_growths 0 cs]
  exact (trimEmpty_isPrefix _).length_le

/-- The running sums of the distribution are the cumulative counts. -/
theorem sum_take_kept (overflow : Int) (i : Nat) (hi : i < cs.length) :
    ((trimEmpty (growths 0 cs) ++ [overflow]).take
      (min i ((trimEmpty (growths 0 cs)).length - 1) + 1)).sum = cs[i] := by
  obtain ⟨-, hnonneg, -⟩ := growths_spec hne hcs hle
  have hfilled : growths 0 cs ≠ [] := by
    rw [← List.length_pos_iff, length_growths]
    omega
  have hkept := trimEmpty_length_pos hfilled
  have hcovers := (isLeast_trimEmpty hfilled hnonneg).1
  generalize hk : (trimEmpty (growths 0 cs)).length = k at hkept hcovers
  have htake : trimEmpty (growths 0 cs) = (growths 0 cs).take k := hk ▸ trimEmpty_eq_take _
  rw [show min i (k - 1) + 1 = min (i + 1) k by omega,
    List.take_append_of_le_length (by omega), htake, List.take_take,
    Nat.min_eq_left (Nat.min_le_right (i + 1) k), ← sum_take_of_covers hcovers,
    sum_take_growths 0 cs i hi, Int.sub_zero]

/-- Buckets that hold the last count again leave the distribution as it is. -/
theorem ofHistogram_append (hcount : h.count < 2 ^ 1023) {extra : List Bucket}
    (hextra : ∀ b ∈ extra, b.atOrBelow.eqInt (cs.getLastD 0) = true) :
    ∃ h', Histogram.make h.count h.total h.max h.percentiles (h.buckets ++ extra) = .ok h' ∧
      ofHistogram h' timed = ofHistogram h timed := by
  have hzero : (Value.Number.float .zero).eqInt 0 = true := by decide +kernel
  have hfault := bucketFault_append hcs hextra hzero rfl (h.bucketFault_eq hne)
  have hne' : h.buckets ++ extra ≠ [] := by simp [hne]
  have haccepted : checkBuckets h.count (h.buckets ++ extra) = none := by
    rw [checkBuckets, if_neg hne', hfault]
  refine ⟨_, Histogram.make_eq haccepted, ?_⟩
  have hle' : ∀ c ∈ cs ++ List.replicate extra.length (cs.getLastD 0), c ≤ 2 ^ 53 := by
    intro c hc
    rcases List.mem_append.mp hc with hc | hc
    · exact hle c hc
    · rw [List.eq_of_mem_replicate hc]
      rcases List.mem_cons.mp (List.getLastD_mem_cons (l := cs) (a := 0)) with h0 | hm
      · rw [h0]; decide
      · exact hle _ hm
  have hgrow : growths 0 (cs ++ List.replicate extra.length (cs.getLastD 0)) =
      growths 0 cs ++ List.replicate extra.length 0 := by
    rw [growths_append, growths_replicate]
  have hfilled : growths 0 cs ≠ [] := by
    rw [← List.length_pos_iff, length_growths, ← hcs.length_eq]
    exact List.length_pos_iff.mpr hne
  have htrim := trimEmpty_append_zeros hfilled
    fun n (hn : n ∈ List.replicate extra.length 0) => List.eq_of_mem_replicate hn
  obtain ⟨mean, hmean, heq⟩ := ofHistogram_whole timed hne hcs hle hcount
  obtain ⟨mean', hmean', heq'⟩ :=
    ofHistogram_whole (h := ⟨h.count, h.total, h.max, h.percentiles, _, haccepted⟩) timed hne'
      (hcs.append hextra) hle' hcount
  have hmeans : mean' = mean := Except.ok.inj (hmean'.symm.trans hmean)
  have hsum : (growths 0 cs ++ List.replicate extra.length 0).sum = (growths 0 cs).sum := by simp
  rw [heq, heq', hmeans, hgrow, htrim, hsum,
    List.take_append_of_le_length (length_trimEmpty_le hcs)]

end Lossless

/-- **Nothing is lost.** Whole cumulative counts are the running sums of the distribution's
counts, up to the last bucket that is kept; the buckets that are kept are the shortest
non-empty prefix with every bucket that is not empty, their bounds in milliseconds if they are
durations; and empty buckets after the last one make no difference. -/
theorem ofHistogram_lossless (h : Histogram) (timed : Bool) (cs : List Int)
    (hne : h.buckets ≠ []) (hcount : h.count < 2 ^ 1023) (hcs : WholeCounts h.buckets cs)
    (hle : ∀ c ∈ cs, c ≤ 2 ^ 53) :
    ∃ d, ofHistogram h timed = .ok d ∧
      d.bounds = (h.buckets.take d.bounds.length).map
        (fun b => if timed then b.bound * 1000 else b.bound) ∧
      (∀ i (hi : i < cs.length),
        (d.counts.take (min i (d.bounds.length - 1) + 1)).sum = cs[i]) ∧
      IsLeast {k | 0 < k ∧ ∀ j, j < cs.length →
        cs.getD j 0 - (0 :: cs).getD j 0 ≠ 0 → j < k} d.bounds.length ∧
      ∀ extra : List Bucket, (∀ b ∈ extra, b.atOrBelow.eqInt (cs.getLastD 0) = true) →
        ∃ h', Histogram.make h.count h.total h.max h.percentiles (h.buckets ++ extra) = .ok h' ∧
          ofHistogram h' timed = .ok d := by
  obtain ⟨mean, -, heq⟩ := ofHistogram_whole timed hne hcs hle hcount
  have hlength : ((h.buckets.take (trimEmpty (growths 0 cs)).length).map
      fun b => scale timed b.bound).length = (trimEmpty (growths 0 cs)).length := by
    rw [List.length_map, List.length_take, Nat.min_eq_left (length_trimEmpty_le hcs)]
  refine ⟨_, heq, ?_, ?_, ?_, ?_⟩
  · rw [hlength]
    rfl
  · intro i hi
    rw [hlength]
    exact sum_take_kept hne hcs hle _ i hi
  · rw [hlength]
    have hfilled : growths 0 cs ≠ [] := by
      rw [← List.length_pos_iff, length_growths, ← hcs.length_eq]
      exact List.length_pos_iff.mpr hne
    have hleast := isLeast_trimEmpty hfilled (growths_spec hne hcs hle).2.1
    simpa only [covers_growths_iff] using hleast
  · intro extra hextra
    obtain ⟨h', hmake, heq'⟩ := ofHistogram_append timed hne hcs hle hcount hextra
    exact ⟨h', hmake, heq'.trans heq⟩

/-- Empty buckets between filled ones and at the end, with a count that is a double. -/
def sparseHistogram : Histogram :=
  ⟨9, 30, .float 8, [], [⟨1, .int 0⟩, ⟨2, .float 3⟩, ⟨4, .int 3⟩, ⟨6, .int 7⟩, ⟨8, .int 7⟩],
    by decide +kernel⟩

theorem ofHistogram_lossless_sparse :
    WholeCounts sparseHistogram.buckets [0, 3, 3, 7, 7] ∧
    ∃ d, ofHistogram sparseHistogram true = .ok d ∧ d.bounds = [1000, 2000, 4000, 6000] ∧
      (∀ i (hi : i < [0, 3, 3, 7, 7].length),
        (d.counts.take (min i (d.bounds.length - 1) + 1)).sum = [0, 3, 3, 7, 7][i]) ∧
      IsLeast {k | 0 < k ∧ ∀ j, j < [0, 3, 3, 7, 7].length →
        [0, 3, 3, 7, 7].getD j 0 - [0, 0, 3, 3, 7, 7].getD j 0 ≠ (0 : Int) → j < k}
        d.bounds.length ∧
      ∀ extra : List Bucket, (∀ b ∈ extra, b.atOrBelow.eqInt 7 = true) →
        ∃ h', Histogram.make 9 30 (.float 8) [] (sparseHistogram.buckets ++ extra) = .ok h' ∧
          ofHistogram h' true = .ok d := by
  have hcs : WholeCounts sparseHistogram.buckets [0, 3, 3, 7, 7] :=
    .cons (by decide +kernel) (.cons (by decide +kernel) (.cons (by decide +kernel)
      (.cons (by decide +kernel) (.cons (by decide +kernel) .nil))))
  obtain ⟨d, hd, -, hsums, hleast, hextra⟩ := ofHistogram_lossless sparseHistogram true
    [0, 3, 3, 7, 7] (by simp [sparseHistogram]) (by decide +kernel) hcs (by decide)
  have hbounds : (ofHistogram sparseHistogram true).toOption.map (·.bounds) =
      some [1000, 2000, 4000, 6000] := by decide +kernel
  rw [hd] at hbounds
  exact ⟨hcs, d, hd, Option.some.inj hbounds, hsums, hleast, hextra⟩

end Telemetry.Distribution

import Mathlib.Data.List.ReduceOption
import Telemetry.Proofs.Meter.StepReports

/-!
What function counters and function timers report over runs of snapshots, with callbacks that fail
and totals that are reset.

A reading is good unless its callback failed or gave NaN; a timer needs both of its readings. The
total that is stored is the last good reading, so that the growths between good readings telescope,
however many failures lie between them.

Proved here:

* `growth_spec`: where the difference of two totals is a double, a growth is the exact difference,
  or zero after a reset;
* `exactSteps_of_whole`: so it is for whole numbers up to 2^53;
* `telescopes_growths`: the reports over a sequence of readings;
* `functionCounter_run`, `functionTimer_run`: a run of snapshots reports these growths;
* `functionMeters_telescope`: hence the reports of both meters telescope.
-/

namespace Telemetry

/-! ## Growths -/

/-- **Growths.** A total that grew by a representable amount reports it, and one that did not grow
reports zero. -/
theorem growth_spec {x last : Binary64} (hx : x.isFinite = true) (hlast : last.isFinite = true)
    (hexact : last.rank < x.rank → Representable (x.rank - last.rank).toNat) :
    (growth x last).isFinite = true ∧ (growth x last).rank = max 0 (x.rank - last.rank) := by
  have hdiff := Binary64.rank_sub hx hlast
  by_cases hgrew : last.rank < x.rank
  · have hrep := hexact hgrew
    have habs : (x.rank - last.rank).natAbs = (x.rank - last.rank).toNat := by omega
    have hfinite := Binary64.isFinite_sub hx hlast hrep (Nat.le_of_eq habs)
    rw [Binary64.rank_ofUnits (habs ▸ hrep)] at hdiff
    have hlt : Binary64.zero.lt (x - last) = true := by
      rw [Binary64.lt_iff rfl (Binary64.isNaN_of_isFinite hfinite), Binary64.rank_zero]
      omega
    rw [growth, Binary64.maxKeepFirst, if_pos hlt]
    exact ⟨hfinite, by omega⟩
  · have hfell : (x - last).rank ≤ 0 := by
      rw [hdiff]
      exact Binary64.rank_ofUnits_nonpos (by omega)
    have hlt : ¬ Binary64.zero.lt (x - last) = true := by
      intro hlt
      have := Binary64.rank_lt_of_lt hlt
      rw [Binary64.rank_zero] at this
      omega
    rw [growth, Binary64.maxKeepFirst, if_neg hlt]
    exact ⟨rfl, by rw [Binary64.rank_zero]; omega⟩

/-- The last good reading, or what there was before. -/
def lastGood (start : Binary64) (readings : List (Option Binary64)) : Binary64 :=
  readings.reduceOption.getLastD start

/-- The reports of a sequence of readings: the growth of each good one since the good one before,
and one same value for each failed one. -/
def growths (failed : Binary64) : Binary64 → List (Option Binary64) → List Binary64
  | _, [] => []
  | last, none :: rest => failed :: growths failed last rest
  | last, some x :: rest => growth x last :: growths failed x rest

/-- The report of a reading, and the total that is stored after it. -/
def rollOver (failed last : Binary64) : Option Binary64 → Binary64 × Binary64
  | none => (failed, last)
  | some x => (growth x last, x)

/-- Good readings that are finite, each at a representable distance above the one before if it is
above. -/
inductive ExactSteps : Binary64 → List (Option Binary64) → Prop
  | nil {last : Binary64} : ExactSteps last []
  | failed {last : Binary64} {rest : List (Option Binary64)} (h : ExactSteps last rest) :
    ExactSteps last (none :: rest)
  | good {last x : Binary64} {rest : List (Option Binary64)} (hx : x.isFinite = true)
    (hexact : last.rank < x.rank → Representable (x.rank - last.rank).toNat)
    (h : ExactSteps x rest) : ExactSteps last (some x :: rest)

theorem exactSteps_of_whole {start : Binary64} {readings : List (Option Binary64)}
    (hstart : ∃ n : Nat, n ≤ twoTo 53 ∧ start.eqInt n = true)
    (hwhole : ∀ x ∈ readings.reduceOption, ∃ n : Nat, n ≤ twoTo 53 ∧ x.eqInt n = true) :
    ExactSteps start readings := by
  induction readings generalizing start with
  | nil => exact .nil
  | cons reading rest ih =>
    cases reading with
    | none => exact .failed (ih hstart hwhole)
    | some x =>
      obtain ⟨hx, hrest⟩ := List.forall_mem_cons.mp hwhole
      refine .good ?_ ?_ (ih hx hrest)
      · obtain ⟨n, -, hn⟩ := hx
        exact (Binary64.eqInt_iff.mp hn).1
      · intro hgrew
        obtain ⟨m, -, hm⟩ := hstart
        obtain ⟨n, hle, hn⟩ := hx
        obtain ⟨-, hstart⟩ := Binary64.eqInt_iff.mp hm
        obtain ⟨-, hrank⟩ := Binary64.eqInt_iff.mp hn
        rw [hstart, hrank] at hgrew ⊢
        have hmn : m ≤ n := Int.ofNat_le.mp
          (Int.le_of_lt (Int.lt_of_mul_lt_mul_right hgrew (Int.le_of_lt unitsPerOne_pos_int)))
        have hunits :
            ((n : Int) * unitsPerOne - m * unitsPerOne).toNat = (n - m) * unitsPerOne := by
          rw [← Int.sub_mul, ← Int.ofNat_sub hmn, ← Int.natCast_mul, Int.toNat_natCast]
        rw [hunits]
        exact representable_whole (Nat.le_trans (Nat.sub_le n m) hle)

theorem lastGood_none (start : Binary64) (rest : List (Option Binary64)) :
    lastGood start (none :: rest) = lastGood start rest := rfl

theorem lastGood_some (start x : Binary64) (rest : List (Option Binary64)) :
    lastGood start (some x :: rest) = lastGood x rest :=
  List.getLastD_cons

theorem growths_cons (failed last : Binary64) (reading : Option Binary64)
    (rest : List (Option Binary64)) :
    growths failed last (reading :: rest) =
      (rollOver failed last reading).1 :: growths failed (rollOver failed last reading).2 rest := by
  cases reading <;> rfl

theorem lastGood_cons (failed last : Binary64) (reading : Option Binary64)
    (rest : List (Option Binary64)) :
    lastGood last (reading :: rest) = lastGood (rollOver failed last reading).2 rest := by
  cases reading with
  | none => rfl
  | some x => exact lastGood_some last x rest

/-- What the reports of readings say of a total.

- `failed_eq`, `good_eq`: the report of each reading; a good one reports the exact growth since the
  last good one, or zero.
- `nonneg`: no report is below zero.
- `sum_eq`, `doubles_eq`: if good readings never decrease from the start on, the growths sum to the
  growth of the total, also when they are added as doubles. -/
structure Telescopes (failed start : Binary64) (readings : List (Option Binary64))
    (reports : List Binary64) : Prop where
  length_eq : reports.length = readings.length
  failed_eq : ∀ i : Nat, readings[i]? = some none → reports[i]? = some failed
  good_eq : ∀ (i : Nat) x, readings[i]? = some (some x) → ∃ r, reports[i]? = some r ∧
    r.isFinite = true ∧ r.rank = max 0 (x.rank - (lastGood start (readings.take i)).rank)
  nonneg : ∀ r ∈ reports, r.isNegative = false
  sum_eq : (start :: readings.reduceOption).IsChain (fun x y => x.le y = true) →
    ((reports.filter (·.isFinite)).map (·.rank)).sum = (lastGood start readings).rank - start.rank
  doubles_eq : (start :: readings.reduceOption).IsChain (fun x y => x.le y = true) →
    ((reports.filter (·.isFinite)).foldl (· + ·) start).rank = (lastGood start readings).rank

section Telescoping

variable {failed start : Binary64} {readings : List (Option Binary64)}

theorem length_growths (failed start : Binary64) (readings : List (Option Binary64)) :
    (growths failed start readings).length = readings.length := by
  induction readings generalizing start with
  | nil => rfl
  | cons reading rest ih => cases reading <;> simp [growths, ih]

theorem growths_failed {i : Nat} (hi : readings[i]? = some none) :
    (growths failed start readings)[i]? = some failed := by
  induction readings generalizing start i with
  | nil => cases hi
  | cons reading rest ih =>
    cases i with
    | zero =>
      obtain rfl := Option.some.inj hi
      rfl
    | succ i => cases reading <;> exact ih hi

theorem growths_good {i : Nat} {x : Binary64} (hi : readings[i]? = some (some x)) :
    (growths failed start readings)[i]? = some (growth x (lastGood start (readings.take i))) := by
  induction readings generalizing start i with
  | nil => cases hi
  | cons reading rest ih =>
    cases i with
    | zero =>
      obtain rfl := Option.some.inj hi
      rfl
    | succ i =>
      cases reading with
      | none => exact ih hi
      | some y =>
        rw [List.take_succ_cons, lastGood_some]
        exact ih hi

theorem rank_growth_nonneg (x last : Binary64) : 0 ≤ (growth x last).rank := by
  rw [growth, Binary64.maxKeepFirst]
  split
  · next hlt => exact Int.le_of_lt (Binary64.rank_lt_of_lt hlt)
  · exact Int.le_refl 0

theorem rank_growths_nonneg (hfailed : 0 ≤ failed.rank) :
    ∀ r ∈ growths failed start readings, 0 ≤ r.rank := by
  induction readings generalizing start with
  | nil => nofun
  | cons reading rest ih =>
    cases reading with
    | none => exact List.forall_mem_cons.mpr ⟨hfailed, ih⟩
    | some x => exact List.forall_mem_cons.mpr ⟨rank_growth_nonneg x start, ih⟩

omit failed in
theorem ExactSteps.good_at (hsteps : ExactSteps start readings) (hstart : start.isFinite = true)
    {i : Nat} {x : Binary64} (hi : readings[i]? = some (some x)) :
    x.isFinite = true ∧ (lastGood start (readings.take i)).isFinite = true ∧
      ((lastGood start (readings.take i)).rank < x.rank →
        Representable (x.rank - (lastGood start (readings.take i)).rank).toNat) := by
  induction hsteps generalizing i with
  | nil => cases hi
  | failed _ ih =>
    cases i with
    | zero => cases hi
    | succ i => exact ih hstart hi
  | good hx hexact _ ih =>
    cases i with
    | zero =>
      obtain rfl := Option.some.inj (Option.some.inj hi)
      exact ⟨hx, hstart, hexact⟩
    | succ i =>
      rw [List.take_succ_cons, lastGood_some]
      exact ih hx hi

/-- The sum of the growths of totals that never decrease. A failed reading counts for nothing. -/
theorem sum_growths (hfailed : failed.rank = 0) (hsteps : ExactSteps start readings)
    (hstart : start.isFinite = true)
    (hascending : (start :: readings.reduceOption).IsChain fun x y => x.le y = true) :
    (((growths failed start readings).filter (·.isFinite)).map (·.rank)).sum =
      (lastGood start readings).rank - start.rank := by
  induction hsteps with
  | nil => exact (Int.sub_self _).symm
  | failed _ ih =>
    rw [lastGood_none, ← ih hstart hascending, growths, List.filter_cons]
    split
    · rw [List.map_cons, List.sum_cons, hfailed, Int.zero_add]
    · rfl
  | good hx hexact _ ih =>
    obtain ⟨hle, hlater⟩ := List.isChain_cons_cons.mp hascending
    rw [Binary64.le_iff (Binary64.isNaN_of_isFinite hstart) (Binary64.isNaN_of_isFinite hx)] at hle
    obtain ⟨hfinite, hrank⟩ := growth_spec hx hstart hexact
    rw [growths, List.filter_cons_of_pos hfinite, List.map_cons, List.sum_cons, ih hx hlater,
      lastGood_some, hrank]
    omega

/-- Their sum in doubles passes through the totals, so that it is exact as well. -/
theorem foldl_growths (hfailed : failed.rank = 0) (hsteps : ExactSteps start readings)
    (hstart : start.isFinite = true)
    (hascending : (start :: readings.reduceOption).IsChain fun x y => x.le y = true)
    {sum : Binary64} (hsum : sum.isFinite = true) (hequal : sum.rank = start.rank) :
    (((growths failed start readings).filter (·.isFinite)).foldl (· + ·) sum).rank =
      (lastGood start readings).rank := by
  induction hsteps generalizing sum with
  | nil => exact hequal
  | failed _ ih =>
    rw [lastGood_none, growths, List.filter_cons]
    split
    · next hfinite =>
      obtain ⟨hadded, hrank⟩ := Binary64.add_exact hsum hfinite hstart (by omega)
      exact ih hstart hascending hadded hrank
    · exact ih hstart hascending hsum hequal
  | good hx hexact _ ih =>
    obtain ⟨hle, hlater⟩ := List.isChain_cons_cons.mp hascending
    rw [Binary64.le_iff (Binary64.isNaN_of_isFinite hstart) (Binary64.isNaN_of_isFinite hx)] at hle
    obtain ⟨hfinite, hrank⟩ := growth_spec hx hstart hexact
    obtain ⟨hadded, hreached⟩ := Binary64.add_exact hsum hfinite hx (by omega)
    rw [growths, List.filter_cons_of_pos hfinite, List.foldl_cons, lastGood_some]
    exact ih hx hlater hadded hreached

/-- **Telescoping.** The growths of exact steps say of a total what they should. -/
theorem telescopes_growths (hfailed : failed.rank = 0) (hstart : start.isFinite = true)
    (hsteps : ExactSteps start readings) :
    Telescopes failed start readings (growths failed start readings) where
  length_eq := length_growths failed start readings
  failed_eq _ := growths_failed
  good_eq i x hi := by
    obtain ⟨hx, hlast, hexact⟩ := hsteps.good_at hstart hi
    exact ⟨_, growths_good hi, growth_spec hx hlast hexact⟩
  nonneg r hr := Binary64.not_isNegative_of_rank_nonneg
    (rank_growths_nonneg (Int.le_of_eq hfailed.symm) r hr)
  sum_eq := sum_growths hfailed hsteps hstart
  doubles_eq hascending := foldl_growths hfailed hsteps hstart hascending hstart rfl

end Telescoping

/-! ## Runs of snapshots -/

/-- The first numbers of a feed. -/
def Feed.numbers (feed : Feed (Option Binary64)) : Nat → List Binary64
  | 0 => []
  | n + 1 => feed.readNumber.1 :: numbers feed.readNumber.2 n

/-- The feed after some calls. -/
def Feed.drop (feed : Feed (Option Binary64)) : Nat → Feed (Option Binary64)
  | 0 => feed
  | n + 1 => drop feed.readNumber.2 n

namespace Meter

/-- A reading, unless it is NaN, as it is also where the callback failed. -/
def good? (x : Binary64) : Option Binary64 := if x.isNaN then none else some x

/-- One component of the readings of a timer, unless either is NaN. -/
def goodOf? (component : Binary64 × Binary64 → Binary64) (pair : Binary64 × Binary64) :
    Option Binary64 :=
  if pair.1.isNaN || pair.2.isNaN then none else some (component pair)

theorem snapshot_functionCounter (id : MeterId) (feed : Feed (Option Binary64))
    (last now : Binary64) :
    let next := rollOver .nan last (good? feed.readNumber.1)
    (Meter.mk id (.functionCounter feed last)).snapshot now =
      (.ok ⟨id, .functionCounter next.1⟩, ⟨id, .functionCounter feed.readNumber.2 next.2⟩) := by
  cases hnan : feed.readNumber.1.isNaN <;>
    simp [snapshot, readState, functionCount, good?, rollOver, hnan, Except.map]

theorem snapshot_functionTimer (id : MeterId) (countFeed totalFeed : Feed (Option Binary64))
    (lastCount lastTotal now : Binary64) :
    let pair := (countFeed.readNumber.1, totalFeed.readNumber.1)
    let count := rollOver .zero lastCount (goodOf? Prod.fst pair)
    let total := rollOver .zero lastTotal (goodOf? Prod.snd pair)
    (Meter.mk id (.functionTimer countFeed totalFeed lastCount lastTotal)).snapshot now =
      (.ok ⟨id, .functionTimer count.1 total.1⟩,
        ⟨id, .functionTimer countFeed.readNumber.2 totalFeed.readNumber.2 count.2 total.2⟩) := by
  cases hnan : countFeed.readNumber.1.isNaN || totalFeed.readNumber.1.isNaN <;>
    simp [snapshot, readState, goodOf?, rollOver, hnan, Except.map]

/-- **Counters.** A run of snapshots reports the growths of its readings, with NaN for a failed one,
and the last good reading is stored. -/
theorem functionCounter_run (id : MeterId) (feed : Feed (Option Binary64)) (last : Binary64)
    (nows : List Binary64) :
    let m : Meter := ⟨id, .functionCounter feed last⟩
    let readings := (feed.numbers nows.length).map good?
    m.reports (nows.map .snapshot) =
        (growths .nan last readings).map (fun r => .ok ⟨id, .functionCounter r⟩) ∧
      m.afterAll (nows.map .snapshot) =
        ⟨id, .functionCounter (feed.drop nows.length) (lastGood last readings)⟩ := by
  dsimp only
  induction nows generalizing feed last with
  | nil => exact ⟨rfl, rfl⟩
  | cons now rest ih =>
    obtain ⟨hreports, hafter⟩ :=
      reports_snapshot (snapshot_functionCounter id feed last now) (rest.map .snapshot)
    obtain ⟨hlater, hleft⟩ := ih feed.readNumber.2 (rollOver .nan last (good? feed.readNumber.1)).2
    rw [List.map_cons, hreports, hafter, hlater, hleft, List.length_cons, Feed.numbers, Feed.drop,
      List.map_cons, growths_cons, List.map_cons, lastGood_cons .nan]
    exact ⟨rfl, rfl⟩

/-- **Timers.** A run of snapshots reports the growths of both components, with zeros where either
reading failed, and both readings of the last good pair are stored. -/
theorem functionTimer_run (id : MeterId) (countFeed totalFeed : Feed (Option Binary64))
    (lastCount lastTotal : Binary64) (nows : List Binary64) :
    let m : Meter := ⟨id, .functionTimer countFeed totalFeed lastCount lastTotal⟩
    let pairs := (countFeed.numbers nows.length).zip (totalFeed.numbers nows.length)
    let counts := pairs.map (goodOf? Prod.fst)
    let totals := pairs.map (goodOf? Prod.snd)
    m.reports (nows.map .snapshot) =
        List.zipWith (fun c t => .ok ⟨id, .functionTimer c t⟩) (growths .zero lastCount counts)
          (growths .zero lastTotal totals) ∧
      m.afterAll (nows.map .snapshot) =
        ⟨id, .functionTimer (countFeed.drop nows.length) (totalFeed.drop nows.length)
          (lastGood lastCount counts) (lastGood lastTotal totals)⟩ := by
  dsimp only
  induction nows generalizing countFeed totalFeed lastCount lastTotal with
  | nil => exact ⟨rfl, rfl⟩
  | cons now rest ih =>
    obtain ⟨hreports, hafter⟩ :=
      reports_snapshot (snapshot_functionTimer id countFeed totalFeed lastCount lastTotal now)
        (rest.map .snapshot)
    obtain ⟨hlater, hleft⟩ := ih countFeed.readNumber.2 totalFeed.readNumber.2 _ _
    rw [List.map_cons, hreports, hafter, hlater, hleft, List.length_cons, Feed.numbers,
      Feed.numbers, Feed.drop, Feed.drop, List.zip_cons_cons, List.map_cons, List.map_cons,
      growths_cons, growths_cons, List.zipWith_cons_cons, lastGood_cons .zero, lastGood_cons .zero]
    exact ⟨rfl, rfl⟩

/-- **Function meters.** Over any run of snapshots of a new function counter or function timer, with
readings at exact steps: its reports telescope, for a timer in both components, and the last good
reading is stored. -/
theorem functionMeters_telescope (id : MeterId) (nows : List Binary64) :
    (∀ feed : Feed (Option Binary64),
      let m : Meter := ⟨id, .functionCounter feed .zero⟩
      let readings := (feed.numbers nows.length).map good?
      ExactSteps .zero readings →
      ∃ growths feed', Telescopes .nan .zero readings growths ∧
        m.reports (nows.map .snapshot) = growths.map (fun r => .ok ⟨id, .functionCounter r⟩) ∧
        m.afterAll (nows.map .snapshot) =
          ⟨id, .functionCounter feed' (lastGood .zero readings)⟩) ∧
    ∀ countFeed totalFeed : Feed (Option Binary64),
      let m : Meter := ⟨id, .functionTimer countFeed totalFeed .zero .zero⟩
      let pairs := (countFeed.numbers nows.length).zip (totalFeed.numbers nows.length)
      let counts := pairs.map (goodOf? Prod.fst)
      let totals := pairs.map (goodOf? Prod.snd)
      ExactSteps .zero counts → ExactSteps .zero totals →
      ∃ countGrowths totalGrowths countFeed' totalFeed',
        Telescopes .zero .zero counts countGrowths ∧ Telescopes .zero .zero totals totalGrowths ∧
        m.reports (nows.map .snapshot) =
          List.zipWith (fun c t => .ok ⟨id, .functionTimer c t⟩) countGrowths totalGrowths ∧
        m.afterAll (nows.map .snapshot) = ⟨id, .functionTimer countFeed' totalFeed'
          (lastGood .zero counts) (lastGood .zero totals)⟩ := by
  refine ⟨fun feed => ?_, fun countFeed totalFeed => ?_⟩
  · dsimp only
    intro hsteps
    obtain ⟨hreports, hafter⟩ := functionCounter_run id feed .zero nows
    exact ⟨_, _, telescopes_growths rfl rfl hsteps, hreports, hafter⟩
  · dsimp only
    intro hcounts htotals
    obtain ⟨hreports, hafter⟩ := functionTimer_run id countFeed totalFeed .zero .zero nows
    exact ⟨_, _, _, _, telescopes_growths rfl rfl hcounts, telescopes_growths rfl rfl htotals,
      hreports, hafter⟩

/-- Counts that fail twice, once by NaN, and are reset in between. -/
def patchyCounts : Feed (Option Binary64) := ⟨some 3, [none, some 10, some 4, some .nan, some 9]⟩

/-- Totals that fail once, where the counts do not. -/
def patchyTotals : Feed (Option Binary64) := ⟨some 1, [some 2, some 5, none, some 7, some 8]⟩

theorem functionMeters_telescope_patchy :
    let id : MeterId := ⟨"laps", [], none, .functionTimer⟩
    let counter : Meter := ⟨id, .functionCounter patchyCounts .zero⟩
    let timer : Meter := ⟨id, .functionTimer patchyCounts patchyTotals .zero .zero⟩
    let uses : List MeterUse := [0, 1, 2, 3, 4, 5].map .snapshot
    (∃ growths feed',
      Telescopes .nan .zero [some 3, none, some 10, some 4, none, some 9] growths ∧
      counter.reports uses = growths.map (fun r => .ok ⟨id, .functionCounter r⟩) ∧
      counter.afterAll uses = ⟨id, .functionCounter feed' 9⟩) ∧
    ∃ countGrowths totalGrowths countFeed' totalFeed',
      Telescopes .zero .zero [some 3, none, some 10, none, none, some 9] countGrowths ∧
      Telescopes .zero .zero [some 1, none, some 5, none, none, some 8] totalGrowths ∧
      timer.reports uses =
        List.zipWith (fun c t => .ok ⟨id, .functionTimer c t⟩) countGrowths totalGrowths ∧
      timer.afterAll uses = ⟨id, .functionTimer countFeed' totalFeed' 9 8⟩ := by
  obtain ⟨hcounter, htimer⟩ :=
    functionMeters_telescope ⟨"laps", [], none, .functionTimer⟩ [0, 1, 2, 3, 4, 5]
  have hreadings : (patchyCounts.numbers 6).map good? =
      [some 3, none, some 10, some 4, none, some 9] := by decide +kernel
  have hcounts : ((patchyCounts.numbers 6).zip (patchyTotals.numbers 6)).map (goodOf? Prod.fst) =
      [some 3, none, some 10, none, none, some 9] := by decide +kernel
  have htotals : ((patchyCounts.numbers 6).zip (patchyTotals.numbers 6)).map (goodOf? Prod.snd) =
      [some 1, none, some 5, none, none, some 8] := by decide +kernel
  have hexact : ∀ readings : List (Option Binary64),
      (∀ x ∈ readings.reduceOption, ∃ n, n < 11 ∧ x.eqInt (n : Nat) = true) →
      ExactSteps .zero readings := by
    refine fun readings hwhole => exactSteps_of_whole ⟨0, by decide, by decide +kernel⟩ ?_
    intro x hx
    obtain ⟨n, hn, heq⟩ := hwhole x hx
    exact ⟨n, Nat.le_trans (Nat.le_of_lt hn) (by decide), heq⟩
  have hcounter := hcounter patchyCounts
  have htimer := htimer patchyCounts patchyTotals
  dsimp only [List.length_cons, List.length_nil] at hcounter htimer
  rw [hreadings] at hcounter
  rw [hcounts, htotals] at htimer
  exact ⟨hcounter (hexact _ (by decide +kernel)),
    htimer (hexact _ (by decide +kernel)) (hexact _ (by decide +kernel))⟩

end Meter

end Telemetry

import Mathlib.Data.List.Nodup
import Mathlib.Order.Bounds.Defs
import Telemetry.Proofs.Binary64.Whole
import Telemetry.Proofs.Schedule.Workers
import Telemetry.Schedule.Step

/-!
The cadence of a task: when a worker enters it, over any number of runs.

A boundary is a multiple of the step. Waits end a millisecond after one, which is still before the
next as long as a step has two milliseconds.

Proved here:

* `StepSchedule.isLeast_boundary`: a wait ends a millisecond after the first boundary to come;
* `StepSchedule.delay_eq`, `exists_delay`: the seconds of a wait, which are a number for every step
  that is one;
* `Scheduler.Timed.entered_run`: a worker that nobody stops enters its task after each wait;
* `StepSchedule.next_run`: the next run is a step later exactly if the run before it ends before
  the next boundary;
* `StepSchedule.runs_once_per_step`: hence there is one run for each boundary if runs take no time.
-/

namespace Telemetry

/-! ## Waits -/

theorem countP_range (n : Nat) (k : Int) :
    (List.range n).countP (fun i : Nat => (i : Int) = k) = if 0 ≤ k ∧ k < n then 1 else 0 := by
  rcases Int.lt_or_le k 0 with hneg | hnonneg
  · rw [if_neg (by omega), List.countP_eq_zero]
    intro i _
    simp only [decide_eq_true_eq]
    omega
  · obtain ⟨j, rfl⟩ := Int.eq_ofNat_of_zero_le hnonneg
    have hcount := List.nodup_range.count (a := j) (l := List.range n)
    simp only [List.mem_range] at hcount
    rw [List.count, List.countP_congr (q := fun i : Nat => (i : Int) = j) (by simp)] at hcount
    simpa using hcount

namespace StepSchedule

variable (s : StepSchedule) (now : Int)

theorem stepMillis_pos : 0 < s.stepMillis := s.one_le

theorem delayMillis_bounds : 2 ≤ s.delayMillis now ∧ s.delayMillis now ≤ s.stepMillis + 1 := by
  have hnonneg := Int.emod_nonneg now (Int.ne_of_gt s.stepMillis_pos)
  have hlt := Int.emod_lt_of_pos now s.stepMillis_pos
  rw [delayMillis]
  omega

theorem add_delayMillis :
    now + s.delayMillis now = (now / s.stepMillis + 1) * s.stepMillis + 1 := by
  have hsplit := Int.mul_ediv_add_emod now s.stepMillis
  rw [delayMillis, Int.add_mul, Int.one_mul, Int.mul_comm (now / s.stepMillis)]
  omega

/-- **Waits** end a millisecond after the first boundary to come. -/
theorem isLeast_boundary :
    IsLeast {b | s.stepMillis ∣ b ∧ now < b} (now + s.delayMillis now - 1) := by
  rw [add_delayMillis, Int.add_sub_cancel]
  refine ⟨⟨Int.dvd_mul_left _ _, Int.lt_ediv_add_one_mul_self now s.stepMillis_pos⟩, ?_⟩
  rintro b ⟨⟨k, rfl⟩, hlt⟩
  have hk : now / s.stepMillis < k :=
    Int.ediv_lt_of_lt_mul s.stepMillis_pos (by rwa [Int.mul_comm])
  rw [Int.mul_comm s.stepMillis]
  exact Int.mul_le_mul_of_nonneg_right hk (Int.le_of_lt s.stepMillis_pos)

theorem delay_eq (h : s.stepMillis < (twoTo 53 : Nat)) :
    s.delay now = .ok (.ofRatio false ((s.delayMillis now).toNat * unitsPerOne) 1000) := by
  obtain ⟨hleast, hmost⟩ := s.delayMillis_bounds now
  obtain ⟨d, hd⟩ := Int.eq_ofNat_of_zero_le (show 0 ≤ s.delayMillis now by omega)
  have hwithin : d ≤ twoTo 53 := by omega
  have hdelay : s.delay now = .ok (Binary64.ofInt d / Binary64.ofInt (1000 : Nat)) := by
    have hok := Binary64.ofIntWithin_eq (n := d) (Binary64.natAbs_le_of_le_53 hwithin)
    rw [delay, hd, hok]
    rfl
  rw [hdelay, Binary64.ofInt_div_ofInt hwithin (by decide) (by decide), hd, Int.toNat_natCast]

/-- A positive number of seconds has a schedule exactly if it is a number of milliseconds. -/
theorem ofValue_float (x : Binary64) :
    ofValue (.float x) =
      if x.leInt 0 = true then .error .stepNotPositive else (x * 1000).toInteger.map ofMillis := by
  have hmost : (Value.float x).atMost 0 = .ok (x.leInt 0) := rfl
  have hmillis : (Value.float x).thousandfold = (x * 1000).toInteger := rfl
  rw [ofValue, hmost, hmillis]
  cases x.leInt 0 with
  | true => rfl
  | false => cases (x * 1000).toInteger <;> rfl

theorem exists_delay {x : Binary64} {s : StepSchedule} (h : ofValue (.float x) = .ok s)
    (now : Int) : ∃ seconds, s.delay now = .ok seconds := by
  obtain ⟨hleast, hmost⟩ := s.delayMillis_bounds now
  have hsucc : (Binary64.ofInt (s.stepMillis + 1)).isFinite = true := by
    rw [ofValue_float] at h
    split at h
    · cases h
    · next hpos =>
      obtain ⟨n, hn, rfl⟩ := Fault.exists_of_map_eq_ok h
      have hrank : 0 ≤ (x * 1000).rank :=
        Binary64.rank_mul_nonneg (Binary64.rank_nonneg_of_not_leInt (Bool.eq_false_iff.mpr hpos))
          (by decide +kernel)
      have hmillis : (ofMillis n).stepMillis = max 1 n := rfl
      rcases Int.le_total n 1 with hone | hone
      · rw [hmillis, Int.max_eq_left hone]
        exact Binary64.isFinite_ofInt (Binary64.natAbs_le_of_le_53 (n := 2) (by decide))
      · rw [hmillis, Int.max_eq_right hone]
        exact Binary64.isFinite_ofInt_succ hrank hn
  have hwithin : (Binary64.ofInt (s.stepMillis + 1)).isInfinite = false := by
    cases hx : Binary64.ofInt (s.stepMillis + 1) <;>
      simp_all [Binary64.isFinite, Binary64.isInfinite]
  have hfinite := Binary64.isFinite_ofInt_of_le (by omega) hmost hwithin
  exact ⟨_, by rw [delay, Binary64.ofIntWithin_eq_ok hfinite]; rfl⟩

/-! ## Runs -/

/-- When runs that last some milliseconds each begin: every one of them after a wait, which begins
at the end of the one before it. -/
def runsFrom (now : Int) : List Nat → List Int
  | [] => []
  | lasts :: rest =>
    (now + s.delayMillis now) :: runsFrom (now + s.delayMillis now + lasts) rest

theorem length_runsFrom (lengths : List Nat) :
    (s.runsFrom now lengths).length = lengths.length := by
  induction lengths generalizing now with
  | nil => rfl
  | cons lasts rest ih => rw [runsFrom, List.length_cons, List.length_cons, ih]

theorem dvd_of_mem_runsFrom {lengths : List Nat} {run : Int} (h : run ∈ s.runsFrom now lengths) :
    s.stepMillis ∣ run - 1 := by
  induction lengths generalizing now with
  | nil => cases h
  | cons lasts rest ih =>
    rcases List.mem_cons.mp h with rfl | hlater
    · exact (s.isLeast_boundary now).1.1
    · exact ih _ hlater

/-- A run begins after the wait from the end of the run before it. -/
theorem getElem?_runsFrom {lengths : List Nat} {i : Nat} {run later : Int} {lasts : Nat}
    (hrun : (s.runsFrom now lengths)[i]? = some run) (hlasts : lengths[i]? = some lasts)
    (hlater : (s.runsFrom now lengths)[i + 1]? = some later) :
    later = run + lasts + s.delayMillis (run + lasts) := by
  induction lengths generalizing now i with
  | nil => cases hlasts
  | cons first rest ih =>
    cases i with
    | zero =>
      obtain rfl := Option.some.inj hrun
      obtain rfl := Option.some.inj hlasts
      cases rest with
      | nil => cases hlater
      | cons second more => exact (Option.some.inj hlater).symm
    | succ i => exact ih _ hrun hlasts hlater

/-- The boundary after a run is the next one if the run is over before it, and a later one if it is
not. -/
theorem next_run {run later : Int} {lasts : Nat} (hdvd : s.stepMillis ∣ run - 1)
    (hlater : later = run + lasts + s.delayMillis (run + lasts)) :
    IsLeast {b | s.stepMillis ∣ b ∧ run + lasts < b} (later - 1) ∧
      (later = run + s.stepMillis ↔ run + lasts < run - 1 + s.stepMillis) := by
  have hleast := s.isLeast_boundary (run + lasts)
  rw [← hlater] at hleast
  refine ⟨hleast, fun heq => ?_, fun hover => ?_⟩
  · have := hleast.1.2
    omega
  · -- no boundary is between those of the run and of the next step
    have hupper : later - 1 ≤ run - 1 + s.stepMillis :=
      hleast.2 ⟨Int.dvd_add hdvd (Int.dvd_refl _), hover⟩
    have hgap := Int.le_of_dvd (by have := hleast.1.2; omega) (Int.dvd_sub hleast.1.1 hdvd)
    omega

section Brief

variable (htwo : 2 ≤ s.stepMillis)

include htwo

/-- A millisecond after a boundary, the step of that boundary has begun. -/
theorem boundary_ediv (k : Int) : (k * s.stepMillis + 1) / s.stepMillis = k := by
  have hpos := s.stepMillis_pos
  rw [Int.add_comm, Int.add_mul_ediv_right _ _ (Int.ne_of_gt hpos),
    Int.ediv_eq_zero_of_lt (by omega) (by omega), Int.zero_add]

theorem runsFrom_replicate (n : Nat) :
    s.runsFrom now (List.replicate n 0) =
      (List.range n).map fun i : Nat => (now / s.stepMillis + (i + 1)) * s.stepMillis + 1 := by
  induction n generalizing now with
  | zero => rfl
  | succ n ih =>
    rw [List.replicate_succ, runsFrom, ih, List.range_succ_eq_map, List.map_cons, List.map_map,
      add_delayMillis, Int.natCast_zero, Int.add_zero, s.boundary_ediv htwo]
    congr 1
    refine List.map_congr_left fun i _ => ?_
    simp only [Function.comp_apply, Nat.succ_eq_add_one, Int.natCast_add]
    congr 2
    omega

/-- **Boundaries** within reach of runs that take no time have one run each. -/
theorem countP_runsFrom {b : Int} (hb : s.stepMillis ∣ b) (n : Nat) :
    (s.runsFrom now (List.replicate n 0)).countP (fun run => b ≤ run ∧ run < b + s.stepMillis) =
      if now < b ∧ b ≤ (now / s.stepMillis + n) * s.stepMillis then 1 else 0 := by
  obtain ⟨k, rfl⟩ := hb
  have hpos := s.stepMillis_pos
  -- a run is within the step after a boundary if it is the run of that boundary
  have hwithin (i : Nat) :
      (s.stepMillis * k ≤ (now / s.stepMillis + (i + 1)) * s.stepMillis + 1 ∧
        (now / s.stepMillis + (i + 1)) * s.stepMillis + 1 < s.stepMillis * k + s.stepMillis) ↔
      (i : Int) = k - now / s.stepMillis - 1 := by
    have hnext : s.stepMillis * k + s.stepMillis = (k + 1) * s.stepMillis := by
      rw [Int.add_mul, Int.one_mul, Int.mul_comm]
    rw [hnext, Int.mul_comm s.stepMillis, ← Int.le_ediv_iff_mul_le hpos,
      ← Int.ediv_lt_iff_lt_mul hpos, s.boundary_ediv htwo]
    omega
  have hreach :
      (now < s.stepMillis * k ∧ s.stepMillis * k ≤ (now / s.stepMillis + n) * s.stepMillis) ↔
      0 ≤ k - now / s.stepMillis - 1 ∧ k - now / s.stepMillis - 1 < n := by
    rw [Int.mul_comm s.stepMillis, ← Int.ediv_lt_iff_lt_mul hpos,
      Int.mul_le_mul_iff_of_pos_right hpos]
    omega
  rw [s.runsFrom_replicate now htwo, List.countP_map, if_congr hreach rfl rfl]
  simp only [Function.comp_def, hwithin]
  exact countP_range n _

end Brief

end StepSchedule

/-! ## Workers in time -/

namespace Scheduler

/-- A worker waits for its next run, and nobody asks it to leave. -/
structure Waits (s : Scheduler) (worker : WorkerId) : Prop where
  waiting : s.phase? worker = some .waiting
  unasked : s.stopRequested = false

/-- A scheduler with the wall time around it, and when a worker of it entered the task, the first
time first. -/
structure Timed where
  now : Int
  scheduler : Scheduler
  entered : List Int := []

namespace Timed

variable (schedule : StepSchedule) (worker : WorkerId)

/-- One turn of a worker: it waits as long as the schedule says, and a run of the task lasts some
milliseconds. -/
def turn (t : Timed) (lasts : Nat) : Timed :=
  let woken := t.scheduler.wake worker
  let now := t.now + schedule.delayMillis t.now
  if woken.phase? worker = some .inTask then
    { now := now + lasts, scheduler := woken.finish worker, entered := t.entered ++ [now] }
  else { t with now, scheduler := woken }

/-- One turn after another. -/
def run (t : Timed) (lengths : List Nat) : Timed := lengths.foldl (turn schedule worker) t

variable {worker}

/-- A worker that nobody asks to leave enters the task after its wait, and waits again after it. -/
theorem turn_of_waits {t : Timed} (h : t.scheduler.Waits worker) (lasts : Nat) :
    ∃ scheduler, scheduler.Waits worker ∧
      t.turn schedule worker lasts =
        { now := t.now + schedule.delayMillis t.now + lasts, scheduler
          entered := t.entered ++ [t.now + schedule.delayMillis t.now] } := by
  have hwoken : t.scheduler.wake worker = t.scheduler.move worker .inTask := by
    rw [wake, if_pos h.waiting]
  have hinside : (t.scheduler.move worker .inTask).phase? worker = some .inTask := by
    rw [phase?_move, if_pos rfl, h.waiting]
    rfl
  refine ⟨(t.scheduler.move worker .inTask).finish worker, ?_, ?_⟩
  · have hunasked : (t.scheduler.move worker .inTask).stopRequested = false := h.unasked
    rw [finish, if_pos hinside, hunasked, if_neg Bool.false_ne_true]
    refine ⟨?_, h.unasked⟩
    rw [phase?_move, if_pos rfl, hinside]
    rfl
  · rw [turn, hwoken]
    exact if_pos hinside

/-- **Entries.** Nobody asks the worker to leave, so it enters the task after each wait. -/
theorem entered_run {t : Timed} (h : t.scheduler.Waits worker) (lengths : List Nat) :
    (t.run schedule worker lengths).entered = t.entered ++ schedule.runsFrom t.now lengths := by
  induction lengths generalizing t with
  | nil => exact (List.append_nil _).symm
  | cons lasts rest ih =>
    obtain ⟨scheduler, hwaits, hturn⟩ := turn_of_waits schedule h lasts
    have hrest := ih (t := t.turn schedule worker lasts) (by rwa [hturn])
    rw [hturn] at hrest
    rw [run, List.foldl_cons, hturn]
    refine hrest.trans ?_
    rw [List.append_assoc]
    rfl

end Timed
end Scheduler

namespace StepSchedule

open Scheduler (Timed Waits)

/-- When a worker enters its task from a time on. -/
def entries (s : StepSchedule) (scheduler : Scheduler) (worker : WorkerId) (start : Int)
    (lengths : List Nat) : List Int := (Timed.run s worker ⟨start, scheduler, []⟩ lengths).entered

theorem entries_eq (s : StepSchedule) {scheduler : Scheduler} {worker : WorkerId}
    (h : scheduler.Waits worker) (start : Int) (lengths : List Nat) :
    s.entries scheduler worker start lengths = s.runsFrom start lengths :=
  Timed.entered_run s h lengths

/-- **Runs of a task** keep to the boundaries of its step. A wait takes two milliseconds to a step
and one more, and ends a millisecond after the first boundary to come. So runs that take no time
are a step apart, and there is one of them within the step after each boundary. Of runs that take
time, the next is a step later exactly if the one before it is over before the next boundary. -/
theorem runs_once_per_step (s : StepSchedule) {scheduler : Scheduler} {worker : WorkerId}
    (h : scheduler.Waits worker) :
    (∀ now, 2 ≤ s.delayMillis now ∧ s.delayMillis now ≤ s.stepMillis + 1 ∧
      IsLeast {b | s.stepMillis ∣ b ∧ now < b} (now + s.delayMillis now - 1) ∧
      (s.stepMillis < (twoTo 53 : Nat) →
        s.delay now = .ok (.ofRatio false ((s.delayMillis now).toNat * unitsPerOne) 1000)) ∧
      ∀ x, ofValue (.float x) = .ok s → ∃ seconds, s.delay now = .ok seconds) ∧
    (2 ≤ s.stepMillis → ∀ start n,
      s.entries scheduler worker start (List.replicate n 0) =
          (List.range n).map (fun i : Nat =>
            (start / s.stepMillis + (i + 1)) * s.stepMillis + 1) ∧
        ∀ b, s.stepMillis ∣ b →
          (s.entries scheduler worker start (List.replicate n 0)).countP
              (fun run => b ≤ run ∧ run < b + s.stepMillis) =
            if start < b ∧ b ≤ (start / s.stepMillis + n) * s.stepMillis then 1 else 0) ∧
    ∀ start lengths,
      (s.entries scheduler worker start lengths).length = lengths.length ∧
        ∀ (i : Nat) (run : Int) (lasts : Nat),
          (s.entries scheduler worker start lengths)[i]? = some run → lengths[i]? = some lasts →
            s.stepMillis ∣ run - 1 ∧
              ∀ later, (s.entries scheduler worker start lengths)[i + 1]? = some later →
                IsLeast {b | s.stepMillis ∣ b ∧ run + lasts < b} (later - 1) ∧
                  (later = run + s.stepMillis ↔ run + lasts < run - 1 + s.stepMillis) := by
  refine ⟨fun now => ?_, fun htwo start n => ?_, fun start lengths => ?_⟩
  · obtain ⟨hleast, hmost⟩ := s.delayMillis_bounds now
    exact ⟨hleast, hmost, s.isLeast_boundary now, s.delay_eq now, fun _ hx => exists_delay hx now⟩
  · rw [s.entries_eq h]
    exact ⟨s.runsFrom_replicate start htwo n, fun b hb => s.countP_runsFrom start htwo hb n⟩
  · rw [s.entries_eq h]
    refine ⟨s.length_runsFrom start lengths, fun i run lasts hrun hlasts => ?_⟩
    have hdvd := s.dvd_of_mem_runsFrom start (List.mem_of_getElem? hrun)
    exact ⟨hdvd, fun later hlater =>
      s.next_run hdvd (s.getElem?_runsFrom start hrun hlasts hlater)⟩

/-- Of three runs each minute the second takes all of it, so the boundary at its end is passed
over. -/
theorem runs_once_per_step_minute :
    let minute : StepSchedule := ⟨60000, by decide⟩
    let started := Scheduler.idle.start
    started.Waits 0 ∧ ofValue (.float 60) = .ok minute ∧
      (∃ seconds, minute.delay 180000 = .ok seconds) ∧
      minute.entries started 0 (-1) [0, 0, 0] = [1, 60001, 120001] ∧
      (minute.entries started 0 (-1) [0, 0, 0]).countP
        (fun run => 60000 ≤ run ∧ run < 60000 + 60000) = 1 ∧
      minute.entries started 0 125000 [59998, 60000, 0] = [180001, 240001, 360001] ∧
      IsLeast {b | (60000 : Int) ∣ b ∧ 240001 + 60000 < b} (360001 - 1) := by
  intro minute started
  have hwaits : started.Waits 0 := ⟨rfl, rfl⟩
  have hminute : ofValue (.float 60) = .ok minute := by
    rw [ofValue_float]
    decide +kernel
  obtain ⟨hwait, hbrief, hlong⟩ := runs_once_per_step minute hwaits
  obtain ⟨hentries, hcount⟩ := hbrief (by decide) (-1) 3
  obtain ⟨-, hnext⟩ := hlong 125000 [59998, 60000, 0]
  obtain ⟨-, hlater⟩ := hnext 1 240001 60000 (by decide) rfl
  exact ⟨hwaits, hminute, (hwait 180000).2.2.2.2 60 hminute, hentries.trans (by decide),
    (hcount 60000 (by decide)).trans (by decide), by decide, (hlater 360001 (by decide)).1⟩

end StepSchedule
end Telemetry

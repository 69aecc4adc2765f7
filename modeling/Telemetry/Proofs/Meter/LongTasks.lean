import Mathlib.Data.List.Induction
import Telemetry.Meter.Basic
import Telemetry.Proofs.Binary64.Sums

/-!
Long tasks over whole runs in which samples are started, and stopped in any order and any number of
times.

A sample is known by its place among all starts. The history of a run says of each sample when it
was started and whether it has been stopped; the timer itself keeps only the tasks that run, by
their ids.

Proved here:

* `run_eq`: after any run the timer holds, under the places of their samples, the tasks that were
  not stopped;
* `perm_openStarts`: to stop a sample takes its start, and no other, from those that are open;
* `exact_durations`: where the durations can be summed exactly, the reported one is their sum;
* `longTasks_kept`: hence what the timer reports and what stopping does at any later reading.
-/

namespace Telemetry

/-! ## The history of a run -/

/-- What is done with a long task timer. A sample is the number of its start. -/
inductive TaskUse where
  | start (now : Binary64)
  | stop (sample : Nat) (now : Binary64)
  | snapshot (now : Binary64)
  deriving DecidableEq

/-- The reading of the clock at a use. -/
def TaskUse.now : TaskUse → Binary64
  | .start now => now
  | .stop _ now => now
  | .snapshot now => now

/-- A sample: when its task was started, and whether it has been stopped. -/
structure TaskSample where
  started : Binary64
  stopped : Bool := false
  deriving DecidableEq

namespace TaskSample

def stop (s : TaskSample) : TaskSample := { s with stopped := true }

/-- The starts of the samples that have not been stopped. -/
def openStarts (samples : List TaskSample) : List Binary64 :=
  (samples.filter (!·.stopped)).map (·.started)

/-- The samples after a use. -/
def note (samples : List TaskSample) : TaskUse → List TaskSample
  | .start now => samples ++ [⟨now, false⟩]
  | .stop sample _ => samples.modify sample stop
  | .snapshot _ => samples

/-- The samples of a run. -/
def ofUses (uses : List TaskUse) : List TaskSample := uses.foldl note []

theorem started_mem {uses : List TaskUse} :
    ∀ s ∈ ofUses uses, s.started ∈ uses.map (·.now) := by
  induction uses using List.reverseRecOn with
  | nil => nofun
  | append_singleton uses use ih =>
    intro s hs
    rw [ofUses, List.foldl_concat] at hs
    rw [List.map_append, List.mem_append]
    cases use with
    | start now =>
      rcases List.mem_append.mp hs with hold | hnew
      · exact Or.inl (ih s hold)
      · rw [List.mem_singleton.mp hnew]
        exact Or.inr (List.mem_singleton.mpr rfl)
    | snapshot now => exact Or.inl (ih s hs)
    | stop sample now =>
      obtain ⟨i, hi⟩ := List.mem_iff_getElem?.mp hs
      rw [note, List.getElem?_modify] at hi
      obtain ⟨old, hold, rfl⟩ := Option.map_eq_some_iff.mp hi
      have hstarted := ih old (List.mem_of_getElem? hold)
      split
      · exact Or.inl hstarted
      · exact Or.inl hstarted

theorem forall_openStarts {P : Binary64 → Prop} {samples : List TaskSample}
    (h : ∀ s ∈ samples, P s.started) : ∀ started ∈ openStarts samples, P started := by
  intro started hopen
  obtain ⟨s, hs, rfl⟩ := List.mem_map.mp hopen
  exact h s (List.mem_filter.mp hs).1

theorem openStarts_cons (s : TaskSample) (rest : List TaskSample) :
    openStarts (s :: rest) =
      if s.stopped then openStarts rest else s.started :: openStarts rest := by
  rw [openStarts, List.filter_cons]
  cases s.stopped <;> rfl

/-- **To stop a sample** takes its start from those that are open. -/
theorem perm_openStarts {samples : List TaskSample} {sample : Nat} {started : Binary64}
    (h : samples[sample]? = some ⟨started, false⟩) :
    (openStarts samples).Perm (started :: openStarts (samples.modify sample stop)) := by
  induction samples generalizing sample with
  | nil => cases h
  | cons s rest ih =>
    cases sample with
    | zero =>
      obtain rfl := Option.some.inj h
      rw [List.modify_zero_cons, openStarts_cons, openStarts_cons]
      exact List.Perm.refl _
    | succ sample =>
      rw [List.modify_succ_cons, openStarts_cons, openStarts_cons]
      have hrest := ih h
      split
      · exact hrest
      · exact (hrest.cons s.started).trans (List.Perm.swap _ _ _)

/-- Samples that were stopped, or never started, are not stopped again. -/
theorem modify_stop_of_closed {samples : List TaskSample} {sample : Nat}
    (h : ∀ started, samples[sample]? ≠ some ⟨started, false⟩) :
    samples.modify sample stop = samples := by
  refine List.ext_getElem? fun i => ?_
  rw [List.getElem?_modify]
  by_cases hi : sample = i
  · subst hi
    simp only [if_true]
    cases hs : samples[sample]? with
    | none => rfl
    | some s =>
      obtain ⟨started, stopped⟩ := s
      cases stopped with
      | true => rfl
      | false => exact absurd hs (h started)
  · simp only [if_neg hi]
    exact Option.map_id'

end TaskSample

/-! ## The tasks that run -/

namespace LongTasks

open TaskSample (openStarts)

/-- The tasks of samples that run, each under the place of its sample. -/
def runningFrom (first : Nat) : List TaskSample → List (Nat × Binary64)
  | [] => []
  | s :: rest =>
    if s.stopped then runningFrom (first + 1) rest
    else (first, s.started) :: runningFrom (first + 1) rest

/-- The tasks of samples. -/
def ofSamples (samples : List TaskSample) : LongTasks := ⟨samples.length, runningFrom 0 samples⟩

theorem map_runningFrom (first : Nat) (samples : List TaskSample) :
    (runningFrom first samples).map (·.2) = openStarts samples := by
  induction samples generalizing first with
  | nil => rfl
  | cons s rest ih =>
    rw [runningFrom, TaskSample.openStarts_cons]
    split
    · exact ih _
    · rw [List.map_cons, ih]

theorem runningFrom_append (first : Nat) (samples more : List TaskSample) :
    runningFrom first (samples ++ more) =
      runningFrom first samples ++ runningFrom (first + samples.length) more := by
  induction samples generalizing first with
  | nil => rfl
  | cons s rest ih =>
    rw [List.cons_append, runningFrom, runningFrom, ih, List.length_cons,
      Nat.add_right_comm first 1]
    split
    · rfl
    · rfl

theorem le_of_mem_runningFrom {first : Nat} {samples : List TaskSample} {task : Nat × Binary64}
    (h : task ∈ runningFrom first samples) : first ≤ task.1 := by
  induction samples generalizing first with
  | nil => cases h
  | cons s rest ih =>
    rw [runningFrom] at h
    split at h
    · exact Nat.le_of_succ_le (ih h)
    · rcases List.mem_cons.mp h with rfl | h
      · exact Nat.le_refl _
      · exact Nat.le_of_succ_le (ih h)

/-- Whoever looks for a task finds it if its sample has not been stopped. -/
theorem find?_runningFrom (first : Nat) (samples : List TaskSample) (sample : Nat) :
    ((runningFrom first samples).find? (·.1 = first + sample)).map (·.2) =
      (samples[sample]?).bind fun s => if s.stopped then none else some s.started := by
  induction samples generalizing first sample with
  | nil => rfl
  | cons s rest ih =>
    rw [runningFrom]
    cases sample with
    | zero =>
      split
      · next hstopped =>
        have hnone : (runningFrom (first + 1) rest).find? (·.1 = first + 0) = none := by
          refine List.find?_eq_none.mpr fun task htask => ?_
          have := le_of_mem_runningFrom htask
          simp only [decide_eq_true_eq]
          omega
        rw [hnone, List.getElem?_cons_zero, Option.bind_some, if_pos hstopped]
        rfl
      · next hopen => simp [hopen]
    | succ sample =>
      have hplace : first + (sample + 1) = first + 1 + sample := by omega
      rw [hplace, List.getElem?_cons_succ, ← ih]
      split
      · rfl
      · rw [List.find?_cons_of_neg (by simp; omega)]

/-- Without the task of a sample, those of the others are left. -/
theorem filter_runningFrom (first : Nat) (samples : List TaskSample) (sample : Nat) :
    (runningFrom first samples).filter (·.1 ≠ first + sample) =
      runningFrom first (samples.modify sample TaskSample.stop) := by
  induction samples generalizing first sample with
  | nil =>
    rw [List.modify_nil]
    rfl
  | cons s rest ih =>
    cases sample with
    | zero =>
      have hlater : (runningFrom (first + 1) rest).filter (·.1 ≠ first + 0) =
          runningFrom (first + 1) rest := by
        refine List.filter_eq_self.mpr fun task htask => ?_
        have := le_of_mem_runningFrom htask
        simp only [decide_eq_true_eq]
        omega
      rw [List.modify_zero_cons, runningFrom, runningFrom]
      split
      · exact hlater
      · rw [List.filter_cons_of_neg (by simp), hlater]
        rfl
    | succ sample =>
      have hplace : first + (sample + 1) = first + 1 + sample := by omega
      rw [List.modify_succ_cons, runningFrom, runningFrom, hplace, ← ih]
      split
      · rfl
      · rw [List.filter_cons_of_pos (by simp; omega)]

section OfSamples

variable (samples : List TaskSample)

theorem start_ofSamples (now : Binary64) :
    (ofSamples samples).start now = (samples.length, ofSamples (samples ++ [⟨now, false⟩])) := by
  rw [start, ofSamples, ofSamples, runningFrom_append, List.length_append, Nat.zero_add]
  rfl

theorem stop_ofSamples (sample : Nat) (now : Binary64) :
    (ofSamples samples).stop sample now =
      match samples[sample]? with
      | some ⟨started, false⟩ => (now - started, ofSamples (samples.modify sample TaskSample.stop))
      | _ => (.zero, ofSamples samples) := by
  have hfound := find?_runningFrom 0 samples sample
  have hleft := filter_runningFrom 0 samples sample
  rw [Nat.zero_add] at hfound hleft
  rw [LongTasks.stop, startedAt?, ofSamples, hfound]
  cases hs : samples[sample]? with
  | none => rfl
  | some s =>
    obtain ⟨started, stopped⟩ := s
    cases stopped with
    | true => rfl
    | false =>
      dsimp only [Option.bind_some]
      rw [hleft]
      simp [ofSamples]

theorem active_ofSamples : (ofSamples samples).active = samples.countP (!·.stopped) := by
  rw [active, ofSamples, ← List.length_map (·.2), map_runningFrom, openStarts, List.length_map,
    List.countP_eq_length_filter]

theorem duration_ofSamples (now : Binary64) :
    (ofSamples samples).duration now = Binary64.sum ((openStarts samples).map (now - ·)) := by
  rw [duration, ofSamples, ← map_runningFrom 0, List.map_map]
  rfl

end OfSamples

end LongTasks

/-! ## The timer and its samples -/

/-- A long task timer with the tasks of its samples, in the order of their starts. -/
structure HeldTimer where
  meter : Meter
  tasks : List Nat := []

namespace HeldTimer

open TaskSample (openStarts)

/-- A new timer. -/
def new (id : MeterId) : HeldTimer := { meter := ⟨id, .longTaskTimer {}⟩ }

/-- Starts a task: its id, and the timer with one more sample. -/
def start? (t : HeldTimer) (now : Binary64) : Option (Nat × HeldTimer) :=
  (t.meter.startTask now).toOption.map fun r => (r.1, ⟨r.2, t.tasks ++ [r.1]⟩)

/-- Stops a sample: the duration that it gives, and the timer after it. Nobody holds a sample that
was not started. -/
def stop? (t : HeldTimer) (sample : Nat) (now : Binary64) : Option (Binary64 × HeldTimer) :=
  (t.tasks[sample]?).bind fun task =>
    (t.meter.stopTask task now).toOption.map fun r => (r.1, { t with meter := r.2 })

/-- The timer after a use. -/
def apply (t : HeldTimer) : TaskUse → HeldTimer
  | .start now => ((t.start? now).map (·.2)).getD t
  | .stop sample now => ((t.stop? sample now).map (·.2)).getD t
  | .snapshot now => { t with meter := (t.meter.snapshot now).2 }

/-- The timer after a run. -/
def run (t : HeldTimer) (uses : List TaskUse) : HeldTimer := uses.foldl apply t

/-- The timer of samples: the task of each is its place. -/
def ofSamples (id : MeterId) (samples : List TaskSample) : HeldTimer :=
  ⟨⟨id, .longTaskTimer (.ofSamples samples)⟩, List.range samples.length⟩

section OfSamples

variable (id : MeterId) (samples : List TaskSample)

theorem start?_ofSamples (now : Binary64) :
    (ofSamples id samples).start? now =
      some (samples.length, ofSamples id (samples ++ [⟨now, false⟩])) := by
  simp only [start?, ofSamples, Meter.startTask, Meter.tasksFor, Except.map, Except.toOption,
    Option.map_some, LongTasks.start_ofSamples, List.length_append, List.length_singleton,
    List.range_succ]

theorem stop?_ofSamples (sample : Nat) (now : Binary64) :
    (ofSamples id samples).stop? sample now = (samples[sample]?).map fun s =>
      if s.stopped then (.zero, ofSamples id samples)
      else (now - s.started, ofSamples id (samples.modify sample .stop)) := by
  by_cases hlt : sample < samples.length
  · have hs := List.getElem?_eq_getElem hlt
    simp only [stop?, ofSamples, List.getElem?_range hlt, Option.bind_some, Meter.stopTask,
      Meter.tasksFor, Except.map, Except.toOption, Option.map_some, LongTasks.stop_ofSamples, hs]
    cases samples[sample] with
    | mk started stopped => cases stopped <;> simp
  · have hge : samples.length ≤ sample := Nat.le_of_not_lt hlt
    rw [stop?, ofSamples, List.getElem?_eq_none (by simpa using hge), List.getElem?_eq_none hge]
    rfl

theorem apply_ofSamples (use : TaskUse) :
    (ofSamples id samples).apply use = ofSamples id (TaskSample.note samples use) := by
  cases use with
  | start now => rw [apply, start?_ofSamples]; rfl
  | snapshot now => rfl
  | stop sample now =>
    rw [apply, stop?_ofSamples, TaskSample.note]
    cases hs : samples[sample]? with
    | none =>
      rw [TaskSample.modify_stop_of_closed fun started heq => by rw [hs] at heq; cases heq]
      rfl
    | some s =>
      obtain ⟨started, stopped⟩ := s
      cases stopped with
      | true =>
        rw [TaskSample.modify_stop_of_closed fun started heq => by rw [hs] at heq; cases heq]
        rfl
      | false => rfl

/-- **Runs.** The timer holds the tasks of its history. -/
theorem run_eq (uses : List TaskUse) :
    (new id).run uses = ofSamples id (TaskSample.ofUses uses) := by
  induction uses using List.reverseRecOn with
  | nil => rfl
  | append_singleton uses use ih =>
    rw [run, List.foldl_concat, TaskSample.ofUses, List.foldl_concat]
    exact (congrArg (apply · use) ih).trans (apply_ofSamples id _ use)

end OfSamples

/-! ## Reports -/

/-- The exact durations at a reading of tasks with these starts, in units. -/
def elapsed (now : Binary64) (starts : List Binary64) : List Int :=
  starts.map fun started => now.rank - started.rank

/-- A timer from which one sample was taken: one task less is active, and every other sample still
gives what it would have given. -/
structure Without (t after : HeldTimer) (sample : Nat) : Prop where
  active_eq : ∃ n, t.meter.activeTasks = .ok (n + 1) ∧ after.meter.activeTasks = .ok n
  others : ∀ other, other ≠ sample → ∀ later,
    (after.stop? other later).map (·.1) = (t.stop? other later).map (·.1)

/-- What a timer reports and does at a reading, after a run with these samples.

- `length_eq`, `nodup`, `fresh`: every sample has an id, and no id is used twice.
- `active_eq`: the active tasks are the samples that were not stopped.
- `duration_nonneg`, `snapshot_eq`: the duration is not negative, and a snapshot reports both and
  changes nothing.
- `first_stop`: the first stop of a sample gives the time since its start and takes it alone.
- `later_stop`: every other stop gives zero and changes nothing. -/
structure Keeps (t : HeldTimer) (samples : List TaskSample) (now : Binary64) : Prop where
  length_eq : t.tasks.length = samples.length
  nodup : t.tasks.Nodup
  fresh : ∃ task after, t.start? now = some (task, after) ∧ task ∉ t.tasks ∧
    after.tasks = t.tasks ++ [task]
  active_eq : t.meter.activeTasks = .ok (samples.countP (!·.stopped))
  duration_nonneg : ∃ d, t.meter.duration now = .ok d ∧ Binary64.zero.le d = true
  snapshot_eq : ∃ n d, t.meter.activeTasks = .ok n ∧ t.meter.duration now = .ok d ∧
    t.meter.snapshot now = (.ok ⟨t.meter.id, .longTaskTimer n d⟩, t.meter)
  first_stop : ∀ (sample : Nat) started, samples[sample]? = some ⟨started, false⟩ →
    ∃ after, t.stop? sample now = some (now - started, after) ∧ t.Without after sample
  later_stop : ∀ (sample : Nat) started, samples[sample]? = some ⟨started, true⟩ →
    t.stop? sample now = some (.zero, t)

/-- What it does where arithmetic is exact.

- `duration_eq`: the duration is the sum over the samples that were not stopped of the times since
  their starts.
- `stop_eq`: the first stop of a sample gives exactly this time, and lowers the duration at the
  same reading by exactly what it gives. -/
structure KeepsExactly (t : HeldTimer) (samples : List TaskSample) (now : Binary64) : Prop where
  duration_eq : ∃ d, t.meter.duration now = .ok d ∧ d.isFinite = true ∧
    d.rank = (elapsed now (openStarts samples)).sum
  stop_eq : ∀ (sample : Nat) started, samples[sample]? = some ⟨started, false⟩ →
    ∃ took after d left, t.stop? sample now = some (took, after) ∧
      took.isFinite = true ∧ took.rank = now.rank - started.rank ∧
      t.meter.duration now = .ok d ∧ after.meter.duration now = .ok left ∧
      left.isFinite = true ∧ d.rank = left.rank + took.rank

/-- **Durations.** Where the times since the starts can be summed exactly, so they are. -/
theorem exact_durations {now : Binary64} {starts : List Binary64} (hnow : now.isFinite = true)
    (hstarts : ∀ started ∈ starts, started.isFinite = true)
    (hexact : SumsRepresentable (elapsed now starts)) :
    (Binary64.sum (starts.map (now - ·))).isFinite = true ∧
      (Binary64.sum (starts.map (now - ·))).rank = (elapsed now starts).sum := by
  have hsub : ∀ started ∈ starts, (now - started).isFinite = true ∧
      (now - started).rank = now.rank - started.rank := fun started hmem =>
    Binary64.exact_sub hnow (hstarts started hmem)
      (hexact.of_mem (List.mem_map_of_mem (f := fun started => now.rank - started.rank) hmem))
  have hranks : (starts.map (now - ·)).map (·.rank) = elapsed now starts := by
    rw [List.map_map]
    exact List.map_congr_left fun started hmem => (hsub started hmem).2
  rw [← hranks] at hexact ⊢
  refine Binary64.exact_sum (fun x hx => ?_) hexact
  obtain ⟨started, hmem, rfl⟩ := List.mem_map.mp hx
  exact (hsub started hmem).1

section Reports

variable (id : MeterId) {samples : List TaskSample} {now : Binary64} (hnow : now.isFinite = true)
  (hstarts : ∀ s ∈ samples, s.started.isFinite = true)

omit hnow hstarts in
theorem activeTasks_ofSamples (samples : List TaskSample) :
    (ofSamples id samples).meter.activeTasks = .ok (samples.countP (!·.stopped)) :=
  congrArg Except.ok (LongTasks.active_ofSamples samples)

omit hnow hstarts in
theorem duration_ofSamples (samples : List TaskSample) (now : Binary64) :
    (ofSamples id samples).meter.duration now =
      .ok (Binary64.sum ((openStarts samples).map (now - ·))) :=
  congrArg Except.ok (LongTasks.duration_ofSamples samples now)

omit hnow hstarts in
theorem without_ofSamples {sample : Nat} {started : Binary64}
    (hs : samples[sample]? = some ⟨started, false⟩) :
    (ofSamples id samples).Without (ofSamples id (samples.modify sample .stop)) sample where
  active_eq := by
    have hcount (samples : List TaskSample) :
        samples.countP (!·.stopped) = (openStarts samples).length := by
      rw [openStarts, List.length_map, List.countP_eq_length_filter]
    have hlen := (TaskSample.perm_openStarts hs).length_eq
    refine ⟨(openStarts (samples.modify sample .stop)).length, ?_, ?_⟩
    · rw [activeTasks_ofSamples, hcount, hlen, List.length_cons]
    · rw [activeTasks_ofSamples, hcount]
  others other hne later := by
    rw [stop?_ofSamples, stop?_ofSamples, List.getElem?_modify_ne _ _ (Ne.symm hne)]
    cases samples[other]? with
    | none => rfl
    | some s =>
      obtain ⟨started', stopped⟩ := s
      cases stopped <;> rfl

include hnow hstarts

theorem keeps_ofSamples (hclock : ∀ s ∈ samples, s.started.le now = true) :
    (ofSamples id samples).Keeps samples now where
  length_eq := List.length_range
  nodup := List.nodup_range
  fresh := by
    refine ⟨_, _, start?_ofSamples id samples now, ?_, ?_⟩
    · exact List.not_mem_range_self
    · rw [ofSamples, List.length_append, List.length_singleton, List.range_succ]
      rfl
  active_eq := activeTasks_ofSamples id samples
  duration_nonneg := by
    refine ⟨_, duration_ofSamples id samples now, Binary64.zero_le_sum fun x hx => ?_⟩
    obtain ⟨_, hopen, rfl⟩ := List.mem_map.mp hx
    obtain ⟨hfinite, hle⟩ := TaskSample.forall_openStarts
      (P := fun started => started.isFinite = true ∧ started.le now = true)
      (fun s hs => ⟨hstarts s hs, hclock s hs⟩) _ hopen
    exact Binary64.zero_le_sub hnow hfinite hle
  snapshot_eq := ⟨_, _, rfl, rfl, rfl⟩
  first_stop sample started hs := by
    refine ⟨_, ?_, without_ofSamples id hs⟩
    rw [stop?_ofSamples, hs]
    rfl
  later_stop sample started hs := by
    rw [stop?_ofSamples, hs]
    rfl

theorem keepsExactly_ofSamples
    (hexact : SumsRepresentable (elapsed now (openStarts samples))) :
    (ofSamples id samples).KeepsExactly samples now where
  duration_eq := ⟨_, duration_ofSamples id samples now,
    exact_durations hnow (TaskSample.forall_openStarts hstarts) hexact⟩
  stop_eq sample started hs := by
    have hperm := TaskSample.perm_openStarts hs
    have hall : SumsRepresentable
        (elapsed now (started :: openStarts (samples.modify sample .stop))) :=
      hexact.perm (hperm.map _).symm
    have hopen : ∀ other ∈ openStarts samples, other.isFinite = true :=
      TaskSample.forall_openStarts hstarts
    obtain ⟨-, hbefore⟩ := exact_durations hnow hopen hexact
    obtain ⟨hleft, hafter⟩ := exact_durations hnow
      (fun other hother => hopen other (hperm.mem_iff.mpr (List.mem_cons_of_mem _ hother)))
      (hall.sublist (List.sublist_cons_self _ _))
    obtain ⟨htook, hrank⟩ := Binary64.exact_sub hnow (hstarts _ (List.mem_of_getElem? hs))
      (hall.of_mem (List.mem_cons_self ..))
    refine ⟨now - started, _, _, _, ?_, htook, hrank, duration_ofSamples id samples now,
      duration_ofSamples id _ now, hleft, ?_⟩
    · rw [stop?_ofSamples, hs]
      rfl
    · rw [hbefore, hafter, hrank, Int.add_comm, ← List.sum_cons]
      exact (hperm.map _).sum_eq

end Reports

/-- **Long tasks.** After any run of a new long task timer, with a clock that never goes back, the
timer keeps its samples: by ids that are never used twice, each until it is stopped for the first
time. At every later reading where the times since the open starts can be summed exactly, the
duration is their sum, and a first stop lowers it by exactly what it gives. -/
theorem longTasks_kept (id : MeterId) (uses : List TaskUse) (now : Binary64)
    (hfinite : ∀ x ∈ uses.map (·.now) ++ [now], x.isFinite = true)
    (hclock : (uses.map (·.now) ++ [now]).Pairwise fun x y => x.le y = true) :
    let t := (new id).run uses
    let samples := TaskSample.ofUses uses
    t.Keeps samples now ∧
      (SumsRepresentable (elapsed now (openStarts samples)) → t.KeepsExactly samples now) := by
  rw [List.forall_mem_append, List.forall_mem_singleton] at hfinite
  rw [List.pairwise_append] at hclock
  have hstarts : ∀ s ∈ TaskSample.ofUses uses, s.started.isFinite = true := fun s hs =>
    hfinite.1 _ (TaskSample.started_mem s hs)
  have hbefore : ∀ s ∈ TaskSample.ofUses uses, s.started.le now = true := fun s hs =>
    hclock.2.2 _ (TaskSample.started_mem s hs) _ (List.mem_singleton_self now)
  dsimp only
  rw [run_eq]
  exact ⟨keeps_ofSamples id hfinite.2 hstarts hbefore,
    keepsExactly_ofSamples id hfinite.2 hstarts⟩

/-- Three tasks, of which the second is stopped twice. -/
def overlappingUses : List TaskUse :=
  [.start 1, .start (3 / 2), .snapshot 2, .stop 1 3, .start (13 / 4), .stop 1 4, .snapshot 4]

theorem longTasks_kept_overlapping :
    let t := (new ⟨"import", [], none, .longTaskTimer⟩).run overlappingUses
    let samples : List TaskSample := [⟨1, false⟩, ⟨3 / 2, true⟩, ⟨13 / 4, false⟩]
    t.Keeps samples (11 / 2) ∧ t.KeepsExactly samples (11 / 2) := by
  have hsamples : TaskSample.ofUses overlappingUses =
      [⟨1, false⟩, ⟨3 / 2, true⟩, ⟨13 / 4, false⟩] := by decide +kernel
  -- all readings are whole quarters
  have helapsed : elapsed (11 / 2) (openStarts [⟨1, false⟩, ⟨3 / 2, true⟩, ⟨13 / 4, false⟩]) =
      [18, 9].map fun k : Nat => (k : Int) * twoTo 1072 := by decide +kernel
  obtain ⟨hkeeps, hexact⟩ := longTasks_kept ⟨"import", [], none, .longTaskTimer⟩ overlappingUses
    (11 / 2) (by decide +kernel) (by decide +kernel)
  rw [hsamples] at hkeeps hexact
  refine ⟨hkeeps, hexact ?_⟩
  rw [helapsed]
  exact sumsRepresentable_of_grid (by decide) (by decide)

end HeldTimer
end Telemetry

import Mathlib.Data.List.Nodup
import Mathlib.Data.List.TFAE
import Mathlib.Logic.ExistsUnique
import Mathlib.Tactic.TFAE
import Telemetry.Schedule.Scheduler

/-!
The workers of a scheduler over whole runs of starts, stops and their own turns.

Proved here:

* `isRunning_start`, `Turn.apply_spec`: what each step does to the workers;
* `Tidy.run`: the current worker is alive and not asked to leave, without one nobody waits, and no
  number is used twice;
* `canRun_iff`: while no stop is asked for, whoever is alive can begin another run;
* `Gone.run`: a worker that a stop finds waiting never begins another run;
* `atMostOneInside_run`: no two workers are inside the task at once as long as nobody is inside
  whenever a worker is started;
* `restart_tfae`: after a restart this is also necessary.
-/

namespace Telemetry.Scheduler

/-! ## Workers -/

theorem isAlive_iff {s : Scheduler} {worker : WorkerId} :
    s.isAlive worker = true ↔ ∃ phase, (worker, phase) ∈ s.workers := by
  simp [isAlive, phase?]

theorem isAlive_of_phase? {s : Scheduler} {worker : WorkerId} {phase : WorkerPhase}
    (h : s.phase? worker = some phase) : s.isAlive worker = true := by
  rw [isAlive, h]
  rfl

theorem phase?_move (s : Scheduler) (worker other : WorkerId) (phase : WorkerPhase) :
    (s.move worker phase).phase? other =
      if other = worker then (s.phase? worker).map fun _ => phase else s.phase? other := by
  have hkey : ((fun w : WorkerId × WorkerPhase => decide (w.1 = other)) ∘
      fun w => if w.1 = worker then (worker, phase) else w) = fun w => decide (w.1 = other) := by
    funext w
    by_cases hw : w.1 = worker <;> simp [hw]
  simp only [phase?, move, List.find?_map, hkey, Option.map_map]
  cases hfound : s.workers.find? fun w => decide (w.1 = other) with
  | none =>
    split
    · next heq => simp [← heq, hfound]
    · rfl
  | some w =>
    have hw : w.1 = other := by simpa using List.find?_some hfound
    subst hw
    split
    · next heq => simp [← heq, hfound]
    · next hne => simp [hne]

theorem isAlive_move (s : Scheduler) (worker other : WorkerId) (phase : WorkerPhase) :
    (s.move worker phase).isAlive other = s.isAlive other := by
  rw [isAlive, isAlive, phase?_move]
  split
  · next h => rw [h, Option.isSome_map]
  · rfl

theorem isAlive_of_leave {s : Scheduler} {worker other : WorkerId}
    (h : (s.leave worker).isAlive other = true) : s.isAlive other = true := by
  obtain ⟨phase, hmem⟩ := isAlive_iff.mp h
  exact isAlive_iff.mpr ⟨phase, (List.mem_filter.mp hmem).1⟩

theorem isAlive_of_stop {s : Scheduler} {worker : WorkerId} (h : s.stop.isAlive worker = true) :
    s.isAlive worker = true := by
  obtain ⟨phase, hmem⟩ := isAlive_iff.mp h
  exact isAlive_iff.mpr ⟨phase, (List.mem_filter.mp hmem).1⟩

/-- The numbers of the workers that are alive. -/
def numbers (s : Scheduler) : List WorkerId := s.workers.map (·.1)

theorem numbers_move (s : Scheduler) (worker : WorkerId) (phase : WorkerPhase) :
    (s.move worker phase).numbers = s.numbers := by
  rw [numbers, numbers, move, List.map_map]
  refine List.map_congr_left fun w _ => ?_
  by_cases hw : w.1 = worker <;> simp [hw]

theorem mem_numbers {s : Scheduler} {worker : WorkerId} :
    worker ∈ s.numbers ↔ s.isAlive worker = true := by
  rw [isAlive_iff, numbers, List.mem_map]
  exact ⟨fun ⟨w, hw, heq⟩ => ⟨w.2, heq ▸ hw⟩, fun ⟨phase, h⟩ => ⟨_, h, rfl⟩⟩

theorem phase?_eq_of_mem {s : Scheduler} (hnodup : s.numbers.Nodup) {worker : WorkerId}
    {phase : WorkerPhase} (h : (worker, phase) ∈ s.workers) : s.phase? worker = some phase := by
  cases hfound : s.workers.find? (·.1 = worker) with
  | none => simpa using List.find?_eq_none.mp hfound _ h
  | some w =>
    have hnumber : w.1 = worker := by simpa using List.find?_some hfound
    have heq := List.inj_on_of_nodup_map hnodup (List.mem_of_find?_eq_some hfound) h hnumber
    rw [phase?, hfound, heq]
    rfl

/-! ## Starts and stops -/

theorem start_of_running {s : Scheduler} (h : s.isRunning = true) : s.start = s := by
  rw [start, if_pos h]

theorem start_of_not_running {s : Scheduler} (h : s.isRunning = false) :
    s.start =
      { stopRequested := false, current := some s.started
        workers := s.workers ++ [(s.started, .waiting)], started := s.started + 1 } := by
  rw [start, if_neg (by simp [h])]

theorem isAlive_start {s : Scheduler} (h : s.isRunning = false) (worker : WorkerId) :
    s.start.isAlive worker = true ↔ s.isAlive worker = true ∨ worker = s.started := by
  rw [start_of_not_running h, isAlive_iff, isAlive_iff]
  constructor
  · rintro ⟨phase, hmem⟩
    rcases List.mem_append.mp hmem with hold | hnew
    · exact Or.inl ⟨phase, hold⟩
    · exact Or.inr (Prod.mk.inj (List.mem_singleton.mp hnew)).1
  · rintro (⟨phase, hold⟩ | rfl)
    · exact ⟨phase, List.mem_append_left _ hold⟩
    · exact ⟨.waiting, List.mem_append_right _ (List.mem_singleton_self _)⟩

theorem isRunning_start (s : Scheduler) : s.start.isRunning = true := by
  cases h : s.isRunning with
  | true => rw [start_of_running h, h]
  | false =>
    have halive := (isAlive_start h s.started).mpr (Or.inr rfl)
    rw [start_of_not_running h] at halive ⊢
    exact halive

/-! ## Turns of workers -/

/-- What a worker does by itself. -/
inductive Turn where
  | wake (worker : WorkerId)
  | finish (worker : WorkerId)

def Turn.apply : Turn → Scheduler → Scheduler
  | .wake worker, s => s.wake worker
  | .finish worker, s => s.finish worker

/-- What a turn comes to: nothing, a worker that enters the task after its wait, or one that is
back from the task and leaves if it was asked to. -/
inductive Turned (s : Scheduler) : Scheduler → Prop
  | kept : Turned s s
  | entered (worker : WorkerId) (hphase : s.phase? worker = some .waiting) :
    Turned s (s.move worker .inTask)
  | left (worker : WorkerId) (hstop : s.stopRequested = true) : Turned s (s.leave worker)
  | back (worker : WorkerId) (hphase : s.phase? worker = some .inTask)
    (hstop : s.stopRequested = false) : Turned s (s.move worker .waiting)

theorem Turn.apply_spec (turn : Turn) (s : Scheduler) : Turned s (turn.apply s) := by
  cases turn with
  | wake worker =>
    rw [apply, Scheduler.wake]
    split
    · next hphase => exact .entered worker hphase
    · exact .kept
  | finish worker =>
    rw [apply, Scheduler.finish]
    split
    · next hphase =>
      split
      · next hstop => exact .left worker hstop
      · next hstop => exact .back worker hphase (Bool.eq_false_iff.mpr hstop)
    · exact .kept

section Turned

variable {s after : Scheduler} (h : Turned s after)

include h

theorem Turned.shared : after.stopRequested = s.stopRequested ∧ after.current = s.current ∧
    after.started = s.started := by
  cases h <;> exact ⟨rfl, rfl, rfl⟩

theorem Turned.isAlive_of {worker : WorkerId} (halive : after.isAlive worker = true) :
    s.isAlive worker = true := by
  cases h with
  | kept => exact halive
  | left => exact isAlive_of_leave halive
  | entered | back => rwa [isAlive_move] at halive

theorem Turned.numbers_sublist : after.numbers.Sublist s.numbers := by
  cases h with
  | kept => exact List.Sublist.refl _
  | left => exact List.filter_sublist.map _
  | entered | back => rw [numbers_move]

theorem Turned.isAlive_eq (hstop : s.stopRequested = false) (worker : WorkerId) :
    after.isAlive worker = s.isAlive worker := by
  cases h with
  | kept => rfl
  | left _ hasked =>
    rw [hstop] at hasked
    cases hasked
  | entered | back => exact isAlive_move ..

end Turned

/-! ## Runs -/

/-- What happens to a scheduler. -/
inductive Move where
  | start
  | stop
  | turn (t : Turn)

def Move.apply : Move → Scheduler → Scheduler
  | .start, s => s.start
  | .stop, s => s.stop
  | .turn t, s => t.apply s

def runMoves (moves : List Move) (s : Scheduler) : Scheduler :=
  moves.foldl (fun s move => move.apply s) s

/-- What the workers do as long as nobody starts or stops anything. -/
def runTurns (turns : List Turn) (s : Scheduler) : Scheduler :=
  turns.foldl (fun s turn => turn.apply s) s

/-- The workers are in order.

- `current`: the current worker is alive and not asked to leave.
- `dismissed`: without a current worker everyone is asked to leave and nobody waits.
- `nodup`, `fresh`: numbers are used once, and all are below the next. -/
structure Tidy (s : Scheduler) : Prop where
  current : ∀ worker, s.current = some worker →
    s.isAlive worker = true ∧ s.stopRequested = false
  dismissed : s.current = none →
    s.workers = [] ∨ s.stopRequested = true ∧ ∀ w ∈ s.workers, w.2 = .inTask
  nodup : s.numbers.Nodup
  fresh : ∀ worker, s.isAlive worker = true → worker < s.started

theorem tidy_idle : idle.Tidy := ⟨nofun, fun _ => Or.inl rfl, List.nodup_nil, nofun⟩

section Tidy

variable {s : Scheduler} (h : s.Tidy)

include h

theorem Tidy.isRunning_iff : s.isRunning = true ↔ s.current.isSome = true := by
  rw [isRunning]
  cases hcurrent : s.current with
  | none => simp
  | some worker => simp [(h.current worker hcurrent).1]

theorem Tidy.current_eq_none (hrunning : s.isRunning = false) : s.current = none := by
  refine Option.not_isSome_iff_eq_none.mp fun hcurrent => ?_
  rw [h.isRunning_iff.mpr hcurrent] at hrunning
  cases hrunning

/-- Without a current worker whoever is alive is inside the task. -/
theorem Tidy.isAlive_iff_inTask (hcurrent : s.current = none) (worker : WorkerId) :
    s.isAlive worker = true ↔ s.phase? worker = some .inTask := by
  refine ⟨fun halive => ?_, isAlive_of_phase?⟩
  obtain ⟨phase, hmem⟩ := isAlive_iff.mp halive
  have hphase : phase = .inTask := by
    rcases h.dismissed hcurrent with hnobody | ⟨-, hinside⟩
    · rw [hnobody] at hmem
      cases hmem
    · exact hinside _ hmem
  exact phase?_eq_of_mem h.nodup (hphase ▸ hmem)

theorem Tidy.start : s.start.Tidy := by
  cases hrunning : s.isRunning with
  | true => rwa [start_of_running hrunning]
  | false =>
    have halive := isAlive_start hrunning
    rw [start_of_not_running hrunning] at halive ⊢
    refine ⟨?_, nofun, ?_, fun worker hworker => ?_⟩
    · rintro _ ⟨⟩
      exact ⟨(halive _).mpr (Or.inr rfl), rfl⟩
    · rw [numbers, List.map_append]
      refine h.nodup.append (List.nodup_singleton _) fun worker hold hnew => ?_
      rw [List.mem_singleton.mp hnew] at hold
      exact Nat.lt_irrefl _ (h.fresh _ (mem_numbers.mp hold))
    · rcases (halive worker).mp hworker with hold | rfl
      · exact Nat.lt_succ_of_lt (h.fresh worker hold)
      · exact Nat.lt_succ_self _

theorem Tidy.stop : s.stop.Tidy where
  current := nofun
  dismissed _ := Or.inr ⟨rfl, fun _ hw => of_decide_eq_true (List.mem_filter.mp hw).2⟩
  nodup := h.nodup.sublist (List.filter_sublist.map _)
  fresh _ hworker := h.fresh _ (isAlive_of_stop hworker)

theorem Tidy.turned {after : Scheduler} (hturned : Turned s after) : after.Tidy := by
  obtain ⟨hstop, hcurrent, hstarted⟩ := hturned.shared
  refine ⟨fun worker hworker => ?_, fun hnone => ?_, h.nodup.sublist hturned.numbers_sublist,
    fun worker hworker => ?_⟩
  · obtain ⟨halive, hnot⟩ := h.current worker (hcurrent ▸ hworker)
    exact ⟨(hturned.isAlive_eq hnot worker).trans halive, hstop.trans hnot⟩
  · rw [hcurrent] at hnone
    cases hturned with
    | kept => exact h.dismissed hnone
    | entered worker hphase =>
      have hinside := (h.isAlive_iff_inTask hnone worker).mp (isAlive_of_phase? hphase)
      rw [hphase] at hinside
      cases hinside
    | left worker hasked =>
      refine (h.dismissed hnone).imp (fun hnobody => ?_) fun hinside =>
        ⟨hinside.1, fun w hw => hinside.2 w (List.mem_filter.mp hw).1⟩
      rw [leave, hnobody]
      rfl
    | back worker hphase hnot =>
      rcases h.dismissed hnone with hnobody | ⟨hasked, -⟩
      · rw [phase?, hnobody] at hphase
        cases hphase
      · rw [hnot] at hasked
        cases hasked
  · rw [hstarted]
    exact h.fresh worker (hturned.isAlive_of hworker)

theorem Tidy.apply (move : Move) : (move.apply s).Tidy := by
  cases move with
  | start => exact h.start
  | stop => exact h.stop
  | turn t => exact h.turned (t.apply_spec s)

theorem Tidy.run (moves : List Move) : (runMoves moves s).Tidy := by
  induction moves generalizing s with
  | nil => exact h
  | cons move rest ih => exact ih (h.apply move)

end Tidy

theorem Tidy.runTurns {s : Scheduler} (h : s.Tidy) (turns : List Turn) :
    (Scheduler.runTurns turns s).Tidy := by
  induction turns generalizing s with
  | nil => exact h
  | cons turn rest ih => exact ih (h.turned (turn.apply_spec s))

theorem runTurns_spec (turns : List Turn) (s : Scheduler) :
    (runTurns turns s).stopRequested = s.stopRequested ∧
      (runTurns turns s).current = s.current ∧ (runTurns turns s).started = s.started ∧
      ∀ worker, (runTurns turns s).isAlive worker = true → s.isAlive worker = true := by
  induction turns generalizing s with
  | nil => exact ⟨rfl, rfl, rfl, fun _ h => h⟩
  | cons turn rest ih =>
    have hturned := turn.apply_spec s
    obtain ⟨hstop, hcurrent, hstarted⟩ := hturned.shared
    obtain ⟨ihstop, ihcurrent, ihstarted, ihalive⟩ := ih (turn.apply s)
    exact ⟨ihstop.trans hstop, ihcurrent.trans hcurrent, ihstarted.trans hstarted,
      fun worker hworker => hturned.isAlive_of (ihalive worker hworker)⟩

/-! ## Who can run again -/

/-- At most one worker is inside the task. -/
def AtMostOneInside (s : Scheduler) : Prop :=
  ∀ v w, s.phase? v = some .inTask → s.phase? w = some .inTask → v = w

/-- A worker can begin another run: there are turns after which it ends its wait inside the
task. -/
def CanRun (s : Scheduler) (worker : WorkerId) : Prop :=
  ∃ turns, (runTurns turns s).phase? worker = some .waiting ∧
    ((runTurns turns s).wake worker).phase? worker = some .inTask

theorem atMostOneInside_of_alone {s : Scheduler}
    (h : ∀ v w, s.isAlive v = true → s.isAlive w = true → v = w) : s.AtMostOneInside :=
  fun v w hv hw => h v w (isAlive_of_phase? hv) (isAlive_of_phase? hw)

/-- Whoever is alive is inside the task after it wakes, and nobody else is moved by that. -/
theorem phase?_wake {s : Scheduler} {worker : WorkerId} (halive : s.isAlive worker = true)
    (other : WorkerId) :
    (s.wake worker).phase? other =
      if other = worker then some .inTask else s.phase? other := by
  obtain ⟨phase, hphase⟩ := Option.isSome_iff_exists.mp halive
  cases phase with
  | waiting =>
    rw [wake, if_pos hphase, phase?_move, hphase]
    rfl
  | inTask =>
    rw [wake, if_neg (by simp [hphase])]
    split
    · next heq => rw [heq, hphase]
    · rfl

section Unstopped

variable {s : Scheduler} (hstop : s.stopRequested = false)

include hstop

/-- **Another run.** While no stop is asked for, it is open to exactly the workers that are
alive. -/
theorem canRun_iff (worker : WorkerId) : s.CanRun worker ↔ s.isAlive worker = true := by
  constructor
  · rintro ⟨turns, hwaiting, -⟩
    obtain ⟨-, -, -, halive⟩ := runTurns_spec turns s
    exact halive worker (isAlive_of_phase? hwaiting)
  · intro halive
    obtain ⟨phase, hphase⟩ := Option.isSome_iff_exists.mp halive
    cases phase with
    | waiting => exact ⟨[], hphase, by simp [runTurns, phase?_wake halive]⟩
    | inTask =>
      have hfinished : runTurns [.finish worker] s = s.move worker .waiting := by
        simp [runTurns, Turn.apply, finish, hphase, hstop]
      have halive' : (s.move worker .waiting).isAlive worker = true := by
        rwa [isAlive_move]
      refine ⟨[.finish worker], ?_, ?_⟩
      · simp [hfinished, phase?_move, hphase]
      · rw [hfinished, phase?_wake halive', if_pos rfl]

/-- Two workers that are alive can come to be inside the task at once. -/
theorem exists_both_inside {v w : WorkerId} (hne : v ≠ w) (hv : s.isAlive v = true)
    (hw : s.isAlive w = true) : ∃ turns, ¬ (runTurns turns s).AtMostOneInside := by
  have halive : (s.wake v).isAlive w = true :=
    (((Turn.wake v).apply_spec s).isAlive_eq hstop w).trans hw
  refine ⟨[.wake v, .wake w], fun honly => hne (honly v w ?_ ?_)⟩
  · simp [runTurns, Turn.apply, phase?_wake halive, phase?_wake hv, hne]
  · simp [runTurns, Turn.apply, phase?_wake halive]

end Unstopped

/-! ## Dismissal -/

/-- A worker that was started, but is not alive any more. -/
structure Gone (worker : WorkerId) (s : Scheduler) : Prop where
  dead : s.isAlive worker = false
  used : worker < s.started

section Gone

variable {worker : WorkerId} {s : Scheduler}

theorem Gone.apply (h : Gone worker s) (move : Move) : Gone worker (move.apply s) := by
  cases move with
  | start =>
    cases hrunning : s.isRunning with
    | true => rwa [Move.apply, start_of_running hrunning]
    | false =>
      refine ⟨Bool.eq_false_iff.mpr fun halive => ?_, ?_⟩
      · rcases (isAlive_start hrunning worker).mp halive with hold | rfl
        · rw [h.dead] at hold
          cases hold
        · exact Nat.lt_irrefl _ h.used
      · rw [Move.apply, start_of_not_running hrunning]
        exact Nat.lt_succ_of_lt h.used
  | stop =>
    refine ⟨Bool.eq_false_iff.mpr fun halive => ?_, h.used⟩
    have hold := isAlive_of_stop halive
    rw [h.dead] at hold
    cases hold
  | turn t =>
    have hturned := t.apply_spec s
    refine ⟨Bool.eq_false_iff.mpr fun halive => ?_, hturned.shared.2.2 ▸ h.used⟩
    have hold := hturned.isAlive_of halive
    rw [h.dead] at hold
    cases hold

theorem Gone.run (h : Gone worker s) (moves : List Move) : Gone worker (runMoves moves s) := by
  induction moves generalizing s with
  | nil => exact h
  | cons move rest ih => exact ih (h.apply move)

theorem Gone.not_canRun (h : Gone worker s) : ¬ s.CanRun worker := by
  rintro ⟨turns, hwaiting, -⟩
  obtain ⟨-, -, -, halive⟩ := runTurns_spec turns s
  have hold := halive worker (isAlive_of_phase? hwaiting)
  rw [h.dead] at hold
  cases hold

/-- A stop ends the wait of every worker that it finds waiting. -/
theorem Tidy.gone_stop (h : s.Tidy) (hphase : s.phase? worker = some .waiting) :
    Gone worker s.stop := by
  refine ⟨Bool.eq_false_iff.mpr fun halive => ?_, h.fresh worker (isAlive_of_phase? hphase)⟩
  obtain ⟨phase, hmem⟩ := isAlive_iff.mp halive
  obtain ⟨hold, hinside⟩ := List.mem_filter.mp hmem
  rw [phase?_eq_of_mem h.nodup hold, Option.some.injEq] at hphase
  subst hphase
  cases of_decide_eq_true hinside

end Gone

/-! ## Restarts -/

/-- Whenever a worker is started, nobody is inside the task. -/
def StartsAlone : List Move → Scheduler → Prop
  | [], _ => True
  | move :: rest, s =>
    (move = .start → s.isRunning = false → ∀ worker, s.phase? worker ≠ some .inTask) ∧
      StartsAlone rest (move.apply s)

theorem atMostOneInside_run {moves : List Move} {s : Scheduler} (htidy : s.Tidy)
    (hstarts : StartsAlone moves s)
    (h : ∀ v w, s.isAlive v = true → s.isAlive w = true → v = w) :
    (runMoves moves s).AtMostOneInside := by
  induction moves generalizing s with
  | nil => exact atMostOneInside_of_alone h
  | cons move rest ih =>
    obtain ⟨halone, hrest⟩ := hstarts
    refine ih (htidy.apply move) hrest fun v w hv hw => ?_
    dsimp only at hv hw
    cases move with
    | start =>
      cases hrunning : s.isRunning with
      | true =>
        have hsame : Move.start.apply s = s := start_of_running hrunning
        rw [hsame] at hv hw
        exact h v w hv hw
      | false =>
        have hnew : ∀ worker, s.start.isAlive worker = true → worker = s.started := by
          intro worker hworker
          refine ((isAlive_start hrunning worker).mp hworker).resolve_left fun hold => ?_
          exact halone rfl hrunning worker
            ((htidy.isAlive_iff_inTask (htidy.current_eq_none hrunning) worker).mp hold)
        exact (hnew v hv).trans (hnew w hw).symm
    | stop => exact h v w (isAlive_of_stop hv) (isAlive_of_stop hw)
    | turn t =>
      have hturned := t.apply_spec s
      exact h v w (hturned.isAlive_of hv) (hturned.isAlive_of hw)

/-- After a restart every worker that is still inside the task can begin another run beside the new
one. So exactly one can if and only if nobody is inside, and only then no two workers are ever
inside at once. -/
theorem restart_tfae {s : Scheduler} (htidy : s.Tidy) (hrunning : s.isRunning = false) :
    (∀ worker, s.start.CanRun worker ↔ s.phase? worker = some .inTask ∨ worker = s.started) ∧
      [∀ worker, s.phase? worker ≠ some .inTask, ∃! worker, s.start.CanRun worker,
        ∀ turns, (runTurns turns s.start).AtMostOneInside].TFAE := by
  have hinside := htidy.isAlive_iff_inTask (htidy.current_eq_none hrunning)
  have hstop : s.start.stopRequested = false := by rw [start_of_not_running hrunning]
  have halive : ∀ worker, s.start.isAlive worker = true ↔
      s.phase? worker = some .inTask ∨ worker = s.started := fun worker =>
    (isAlive_start hrunning worker).trans (or_congr_left (hinside worker))
  have hcan : ∀ worker, s.start.CanRun worker ↔
      s.phase? worker = some .inTask ∨ worker = s.started := fun worker =>
    (canRun_iff hstop worker).trans (halive worker)
  have hnew : s.start.isAlive s.started = true := (halive _).mpr (Or.inr rfl)
  have hold : ∀ worker, s.phase? worker = some .inTask →
      s.start.isAlive worker = true ∧ worker ≠ s.started := fun worker hworker =>
    ⟨(halive worker).mpr (Or.inl hworker),
      Nat.ne_of_lt (htidy.fresh worker (isAlive_of_phase? hworker))⟩
  refine ⟨hcan, ?_⟩
  tfae_have 1 → 2 := fun hnobody =>
    ⟨s.started, (hcan _).mpr (Or.inr rfl), fun worker hworker =>
      ((hcan worker).mp hworker).resolve_left (hnobody worker)⟩
  tfae_have 2 → 1 := by
    intro hunique worker hworker
    refine (hold worker hworker).2 ?_
    exact hunique.unique ((hcan worker).mpr (Or.inl hworker)) ((hcan _).mpr (Or.inr rfl))
  tfae_have 1 → 3 := by
    intro hnobody turns
    obtain ⟨-, -, -, hleft⟩ := runTurns_spec turns s.start
    have honly : ∀ worker, (runTurns turns s.start).isAlive worker = true → worker = s.started :=
      fun worker hworker =>
        ((halive worker).mp (hleft worker hworker)).resolve_left (hnobody worker)
    exact atMostOneInside_of_alone fun v w hv hw => (honly v hv).trans (honly w hw).symm
  tfae_have 3 → 1 := by
    intro hnever worker hworker
    obtain ⟨hstill, hne⟩ := hold worker hworker
    obtain ⟨turns, hboth⟩ := exists_both_inside hstop hne hstill hnew
    exact hboth (hnever turns)
  tfae_finish

/-- **Runs of workers.** In a run whose workers are started while nobody is inside the task, no two
of them are ever inside it at once. After any run and a stop, whoever was waiting then never begins
another run, whatever happens; and after whatever turns the workers take, a restart lets exactly
those run again that are still inside, beside the new worker. So nobody may be inside if there is
to be exactly one of them, or if no two are to be inside at once. -/
theorem workers_apart (moves : List Move) :
    (StartsAlone moves idle → (runMoves moves idle).AtMostOneInside) ∧
      (∀ worker, (runMoves moves idle).phase? worker = some .waiting → ∀ later : List Move,
        ¬ (runMoves later (runMoves moves idle).stop).CanRun worker) ∧
      ∀ turns : List Turn, let s := runTurns turns (runMoves moves idle).stop
        (∀ worker, s.start.CanRun worker ↔ s.phase? worker = some .inTask ∨ worker = s.started) ∧
          [∀ worker, s.phase? worker ≠ some .inTask, ∃! worker, s.start.CanRun worker,
            ∀ later, (runTurns later s.start).AtMostOneInside].TFAE := by
  have htidy := tidy_idle.run moves
  refine ⟨fun hstarts => atMostOneInside_run tidy_idle hstarts nofun,
    fun worker hphase later => ((htidy.gone_stop hphase).run later).not_canRun, fun turns => ?_⟩
  obtain ⟨-, hcurrent, -, -⟩ := runTurns_spec turns (runMoves moves idle).stop
  exact restart_tfae (htidy.stop.runTurns turns) (by rw [isRunning, hcurrent]; rfl)

/-- A worker that is stopped inside the task is still there when the next one enters it, and
begins another run after that. -/
theorem stopped_worker_returns :
    ¬ (∀ moves, (runMoves moves idle).AtMostOneInside) ∧
      ¬ (∀ moves, ∃! worker, (runMoves moves idle).stop.start.CanRun worker) := by
  constructor
  · intro h
    have hboth := h [.start, .turn (.wake 0), .stop, .start, .turn (.wake 1)] 0 1 rfl rfl
    cases hboth
  · intro h
    let restarted := (runMoves [.start, .turn (.wake 0)] idle).stop.start
    have hold : restarted.CanRun 0 := ⟨[.finish 0], rfl, rfl⟩
    have hnew : restarted.CanRun 1 := ⟨[], rfl, rfl⟩
    cases (h [.start, .turn (.wake 0)]).unique hold hnew

end Telemetry.Scheduler

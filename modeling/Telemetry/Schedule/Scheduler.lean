import Telemetry.Notice

/-!
The scheduler of a repeating task. Its state is what its workers share: a stop flag, the
handle of the current worker, and the loops that are alive, each waiting for its next run
or inside the task.

- `Scheduler.start` starts a worker unless the current one is alive, and takes the stop flag
  back.
- `Scheduler.stop` sets the flag, which ends every wait at once, and lets the current worker
  go. It gives up on a worker that is inside the task for too long.
- `Scheduler.wake`: the wait of a worker runs out, and it enters the task.
- `Scheduler.finish`: a worker comes out of the task. It leaves if the flag is set by then,
  else it waits again.
-/

namespace Telemetry

abbrev WorkerId := Nat

inductive WorkerPhase where
  | waiting | inTask
  deriving DecidableEq, Repr

structure Scheduler where
  stopRequested : Bool := false
  current : Option WorkerId := none
  workers : List (WorkerId × WorkerPhase) := []
  started : Nat := 0
  deriving DecidableEq, Repr

namespace Scheduler

def idle : Scheduler := {}

instance : Inhabited Scheduler := ⟨idle⟩

def phase? (s : Scheduler) (worker : WorkerId) : Option WorkerPhase :=
  (s.workers.find? (·.1 = worker)).map (·.2)

def isAlive (s : Scheduler) (worker : WorkerId) : Bool := (s.phase? worker).isSome

def isRunning (s : Scheduler) : Bool := s.current.any s.isAlive

def start (s : Scheduler) : Scheduler :=
  if s.isRunning then s
  else
    { stopRequested := false
      current := some s.started
      workers := s.workers ++ [(s.started, .waiting)]
      started := s.started + 1 }

/-- A wait that the flag has ended does not go on, even if the flag is taken back at once; so
only workers inside the task are left. -/
def stop (s : Scheduler) : Scheduler :=
  { s with
    stopRequested := true, current := none
    workers := s.workers.filter (·.2 = .inTask) }

def leave (s : Scheduler) (worker : WorkerId) : Scheduler :=
  { s with workers := s.workers.filter (·.1 ≠ worker) }

def move (s : Scheduler) (worker : WorkerId) (phase : WorkerPhase) : Scheduler :=
  { s with workers := s.workers.map fun w => if w.1 = worker then (worker, phase) else w }

def wake (s : Scheduler) (worker : WorkerId) : Scheduler :=
  if s.phase? worker = some .waiting then s.move worker .inTask else s

def finish (s : Scheduler) (worker : WorkerId) : Scheduler :=
  if s.phase? worker = some .inTask then
    if s.stopRequested then s.leave worker else s.move worker .waiting
  else s

/-- The notices of a run of the task, whose faults go no further. -/
def noticesOf : Except Fault Unit → List Notice
  | .ok _ => []
  | .error _ => [.taskFailed]

end Scheduler
end Telemetry

import Telemetry.Binary64.Arithmetic

/-!
Tasks that are still running: the monotonic reading at which each was started, under an
id that is never used again.
-/

namespace Telemetry

structure LongTasks where
  nextId : Nat := 0
  running : List (Nat × Binary64) := []
  deriving DecidableEq

namespace LongTasks

def start (tasks : LongTasks) (now : Binary64) : Nat × LongTasks :=
  (tasks.nextId, ⟨tasks.nextId + 1, tasks.running ++ [(tasks.nextId, now)]⟩)

def startedAt? (tasks : LongTasks) (id : Nat) : Option Binary64 :=
  (tasks.running.find? (·.1 = id)).map (·.2)

/-- Stops a task: its duration, zero for a task that does not run. -/
def stop (tasks : LongTasks) (id : Nat) (now : Binary64) : Binary64 × LongTasks :=
  match tasks.startedAt? id with
  | none => (.zero, tasks)
  | some started => (now - started, { tasks with running := tasks.running.filter (·.1 ≠ id) })

def active (tasks : LongTasks) : Nat := tasks.running.length

def duration (tasks : LongTasks) (now : Binary64) : Binary64 :=
  Binary64.sum (tasks.running.map fun task => now - task.2)

end LongTasks
end Telemetry

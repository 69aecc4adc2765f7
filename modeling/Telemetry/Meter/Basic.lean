import Telemetry.Meter.Feed
import Telemetry.Meter.LongTasks
import Telemetry.Meter.Snapshot
import Telemetry.Meter.StepHistogram

/-!
Meters and their snapshots. Counters, timers, summaries and function meters report what
happened since the last snapshot, which rolls them over; gauges and running tasks are read
as they are.

- `Meter.snapshot`: the report, and the meter after it.
- `Meter.increment`, `set`, `add`, `record`, …: the operations of each kind, which fail on a
  meter of another kind.
-/

namespace Telemetry

/-- A gauge: a value that is set, or the feed of a callback. -/
structure GaugeState where
  value : Binary64 := .zero
  feed : Option (Feed (Option Binary64)) := none
  deriving DecidableEq

inductive MeterState where
  | gauge (state : GaugeState)
  | timeGauge (state : GaugeState)
  | counter (value : Binary64)
  | functionCounter (feed : Feed (Option Binary64)) (last : Binary64)
  | timer (histogram : StepHistogram)
  | summary (histogram : StepHistogram)
  | longTaskTimer (tasks : LongTasks)
  | functionTimer (count total : Feed (Option Binary64)) (lastCount lastTotal : Binary64)
  | custom (feed : Feed (Option (List Measurement)))
  deriving DecidableEq

def MeterState.type : MeterState → MeterType
  | .gauge _ => .gauge
  | .timeGauge _ => .timeGauge
  | .counter _ => .counter
  | .functionCounter .. => .functionCounter
  | .timer _ => .timer
  | .summary _ => .distributionSummary
  | .longTaskTimer _ => .longTaskTimer
  | .functionTimer .. => .functionTimer
  | .custom _ => .other

structure Meter where
  id : MeterId
  state : MeterState
  deriving DecidableEq

def GaugeState.read (g : GaugeState) : Binary64 × GaugeState :=
  match g.feed with
  | none => (g.value, g)
  | some feed =>
    let outcome := feed.readNumber
    (outcome.1, { g with feed := some outcome.2 })

def growth (current last : Binary64) : Binary64 :=
  Binary64.zero.maxKeepFirst (current - last)

/-- The report of a function counter: the growth since the last good reading; a failed
reading reports NaN and is forgotten. -/
def functionCount (current last : Binary64) : Binary64 × Binary64 :=
  if current.isNaN then (.nan, last) else (growth current last, current)

namespace Meter

def type (m : Meter) : MeterType := m.state.type

def readState (now : Binary64) : MeterState → Except Fault Reading × MeterState
  | .gauge g =>
    let r := g.read
    (.ok (.gauge r.1), .gauge r.2)
  | .timeGauge g =>
    let r := g.read
    (.ok (.timeGauge r.1), .timeGauge r.2)
  | .counter value => (.ok (.counter value), .counter .zero)
  | .functionCounter feed last =>
    let r := feed.readNumber
    let report := functionCount r.1 last
    (.ok (.functionCounter report.1), .functionCounter r.2 report.2)
  | .timer h =>
    let r := h.take
    (r.1.map .timer, .timer r.2)
  | .summary h =>
    let r := h.take
    (r.1.map .summary, .summary r.2)
  | .longTaskTimer tasks =>
    (.ok (.longTaskTimer tasks.active (tasks.duration now)), .longTaskTimer tasks)
  | .functionTimer countFeed totalFeed lastCount lastTotal =>
    let c := countFeed.readNumber
    let t := totalFeed.readNumber
    if c.1.isNaN || t.1.isNaN then
      (.ok (.functionTimer .zero .zero), .functionTimer c.2 t.2 lastCount lastTotal)
    else
      (.ok (.functionTimer (growth c.1 lastCount) (growth t.1 lastTotal)),
        .functionTimer c.2 t.2 c.1 t.1)
  | .custom feed =>
    let r := feed.read
    (.ok (.custom (r.1.getD [])), .custom r.2)

def snapshot (now : Binary64) (m : Meter) : Except Fault Snapshot × Meter :=
  let r := readState now m.state
  (r.1.map (⟨m.id, ·⟩), { m with state := r.2 })

def lacks (m : Meter) (operation : String) : Fault := .noOperation m.type.title operation

def increment (amount : Binary64) (m : Meter) : Except Fault Meter :=
  match m.state with
  | .counter value =>
    if amount.isNegative then .error .counterDecrement
    else .ok { m with state := .counter (value + amount) }
  | _ => .error (m.lacks "increment")

def count (m : Meter) : Except Fault Binary64 :=
  match m.state with
  | .counter value => .ok value
  | _ => .error (m.lacks "count")

def modifyGauge (operation : String) (f : Binary64 → Binary64) (m : Meter) :
    Except Fault Meter :=
  match m.state with
  | .gauge g => .ok { m with state := .gauge { g with value := f g.value } }
  | .timeGauge g => .ok { m with state := .timeGauge { g with value := f g.value } }
  | _ => .error (m.lacks operation)

def set (value : Binary64) (m : Meter) : Except Fault Meter :=
  m.modifyGauge "set" fun _ => value

def add (value : Binary64) (m : Meter) : Except Fault Meter := m.modifyGauge "inc" (· + value)

def subtract (value : Binary64) (m : Meter) : Except Fault Meter :=
  m.modifyGauge "dec" (· - value)

def value (m : Meter) : Except Fault (Binary64 × Meter) :=
  match m.state with
  | .gauge g => .ok (g.read.1, { m with state := .gauge g.read.2 })
  | .timeGauge g => .ok (g.read.1, { m with state := .timeGauge g.read.2 })
  | _ => .error (m.lacks "value")

def record (value : Binary64) (m : Meter) : Except Fault Unit × Meter :=
  match m.state with
  | .timer h =>
    let r := h.recordNonNegative value
    (r.1, { m with state := .timer r.2 })
  | .summary h =>
    let r := h.recordNonNegative value
    (r.1, { m with state := .summary r.2 })
  | _ => (.error (m.lacks "record"), m)

def recordAll (m : Meter) : List (Except Fault Binary64) → Except Fault Unit × Meter
  | [] => (.ok (), m)
  | .error fault :: _ => (.error fault, m)
  | .ok value :: rest =>
    let r := m.record value
    match r.1 with
    | .error fault => (.error fault, r.2)
    | .ok () => recordAll r.2 rest

/-- Times a piece of work between two readings of a timer. Its outcome comes back after the
duration is recorded, unless that fails. -/
def time {α : Type} (start stop : Binary64) (outcome : Except Fault α) (m : Meter) :
    Except Fault α × Meter :=
  match m.state with
  | .timer h =>
    let r := h.recordNonNegative (stop - start)
    (r.1.bind fun _ => outcome, { m with state := .timer r.2 })
  | _ => (.error (m.lacks "time"), m)

/-- The tasks of a long task timer, which has an operation. -/
def tasksFor (operation : String) (m : Meter) : Except Fault LongTasks :=
  match m.state with
  | .longTaskTimer tasks => .ok tasks
  | _ => .error (m.lacks operation)

def activeTasks (m : Meter) : Except Fault Nat := (m.tasksFor "active_tasks").map (·.active)

def duration (now : Binary64) (m : Meter) : Except Fault Binary64 :=
  (m.tasksFor "duration").map (·.duration now)

def startTask (now : Binary64) (m : Meter) : Except Fault (Nat × Meter) :=
  (m.tasksFor "start").map fun tasks =>
    ((tasks.start now).1, { m with state := .longTaskTimer (tasks.start now).2 })

def stopTask (task : Nat) (now : Binary64) (m : Meter) : Except Fault (Binary64 × Meter) :=
  (m.tasksFor "stop").map fun tasks =>
    ((tasks.stop task now).1, { m with state := .longTaskTimer (tasks.stop task now).2 })

end Meter
end Telemetry

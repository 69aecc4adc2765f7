import Telemetry.Clock
import Telemetry.Meter.Source
import Telemetry.Publication.Publisher
import Telemetry.Schedule.Scheduler
import Telemetry.Schedule.Step
import Telemetry.Series.Builder

/-!
The periodic export of snapshots to the monitoring service. An exporter owns the connection
and the descriptor cache; while it has no connection, publishing does nothing.

- `Exporter.create`: an exporter of a valid configuration.
- `Exporter.start`, `stop`: connecting and scheduling, and the end of both.
- `Exporter.publish`: one cycle: collect, build, send. Its window starts just after the
  previous cycle's, or after the connection was made.
- `Exporter.publishSafely`: a cycle that reports what goes wrong with it.
-/

namespace Telemetry

/-- What an exporter is made of: its settings, how it connects, and where snapshots come
from. -/
structure ExporterSetup (σ ρ : Type) where
  config : ExportConfig
  naming : NamingConvention := .identity
  connect : σ → Except Fault (Client σ) × σ
  source : SnapshotSource ρ

/-- An exporter with the wall time, the service and the source around it. -/
structure Exporter (σ ρ : Type) where
  setup : ExporterSetup σ ρ
  schedule : StepSchedule
  scheduler : Scheduler
  client : Option (Client σ)
  cache : Option DescriptorCache
  previousEnd : Int
  lastResult : Option PublishResult
  now : Int
  backend : σ
  source : ρ

namespace Exporter

variable {σ ρ : Type}

def config (e : Exporter σ ρ) : ExportConfig := e.setup.config

def isRunning (e : Exporter σ ρ) : Bool := e.scheduler.isRunning

def attach (client : Client σ) (e : Exporter σ ρ) : Exporter σ ρ :=
  { e with client := some client, cache := some .empty }

/-- An exporter at a wall time. A client given here is connected at once. -/
def create (setup : ExporterSetup σ ρ) (client : Option (Client σ)) (now : Int)
    (backend : σ) (source : ρ) : Except Fault (Exporter σ ρ) := do
  setup.config.validate
  let schedule ← StepSchedule.ofValue setup.config.stepSeconds
  let detached : Exporter σ ρ :=
    { setup, schedule, scheduler := .idle, client := none, cache := none
      previousEnd := now, lastResult := none, now, backend, source }
  match client with
  | none => return detached
  | some client => return detached.attach client

def run (e : Exporter σ ρ) : Exporter σ ρ × List Notice :=
  ({ e with scheduler := e.scheduler.start },
    [.publishing e.config.projectId e.config.stepSeconds])

/-- Connects if need be, and starts the periodic cycle. -/
def start (e : Exporter σ ρ) : Exporter σ ρ × List Notice :=
  if !e.config.enabled.truthy then (e, [.exportDisabled])
  else if e.isRunning then (e, [])
  else
    match e.client with
    | some _ => e.run
    | none =>
      match e.setup.connect e.backend with
      | (.error fault, backend) => ({ e with backend }, [.clientUnavailable fault])
      | (.ok client, backend) =>
        run (attach client { e with backend, previousEnd := e.now })

def stop (e : Exporter σ ρ) : Exporter σ ρ × List Notice :=
  let stopped := { e with scheduler := e.scheduler.stop, client := none, cache := none }
  match e.client with
  | none => (stopped, [])
  | some client =>
    match client.close e.backend with
    | (.ok _, backend) => ({ stopped with backend }, [])
    | (.error fault, backend) => ({ stopped with backend }, [.clientNotClosed fault])

def nextWindow (e : Exporter σ ρ) : BatchWindow := .following e.previousEnd e.now

/-- The notice of a cycle in which records were dropped. -/
def dropNotices (r : PublishResult) : List Notice :=
  if r.partitionsFailed = 0 then []
  else
    [.recordsDropped r.recordsDropped (r.recordsDropped + r.recordsSent) r.partitionsFailed]

def transmit (e : Exporter σ ρ) (client : Client σ) (window : BatchWindow)
    (snapshots : List Snapshot) : Except Fault PublishResult × Exporter σ ρ × List Notice :=
  let builder : SeriesBuilder σ := ⟨e.config, window, e.setup.naming, client⟩
  let built := builder.buildAll snapshots ⟨e.cache, e.backend, []⟩
  let (result, backend, notices) := Publisher.publish e.config client built.1 built.2.backend
  let after := { e with cache := built.2.cache, backend }
  match result with
  | .error fault => (.error fault, after, built.2.notices ++ notices)
  | .ok result =>
    (.ok result, { after with lastResult := some result },
      built.2.notices ++ notices ++ dropNotices result)

/-- One cycle: its result, or nothing without a connection. -/
def publish (e : Exporter σ ρ) :
    Except Fault (Option PublishResult) × Exporter σ ρ × List Notice :=
  match e.client with
  | none => (.ok none, e, [.noClient])
  | some client =>
    let collected := e.setup.source e.source
    let entered := { e with previousEnd := e.now, source := collected.2 }
    match collected.1 with
    | .error fault => (.error fault, entered, [])
    | .ok snapshots =>
      let (result, after, notices) := transmit entered client e.nextWindow snapshots
      (result.map some, after, notices)

/-- A cycle that never fails: an unexpected fault is reported. -/
def publishSafely (e : Exporter σ ρ) : Exporter σ ρ × List Notice :=
  match e.publish with
  | (.ok _, after, notices) => (after, notices)
  | (.error _, after, notices) => (after, notices ++ [.publishFailed])

def advance (millis : Int) (seconds : Binary64) (e : Exporter σ ρ) :
    Except Fault (Exporter σ ρ) :=
  (Clock.advance e.now millis seconds).map fun now => { e with now }

end Exporter
end Telemetry

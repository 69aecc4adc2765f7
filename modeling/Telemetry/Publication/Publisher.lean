import Telemetry.Backend.Client
import Telemetry.Config.Basic
import Telemetry.Notice
import Telemetry.Publication.Partition

/-!
Sending the records of one cycle, partition by partition. A partition that fails is
reported and dropped; it never keeps the others back, and nothing is sent twice.

- `Publisher.sendAll`: the outcomes of partitions that are sent one after another.
- `Publisher.sendPooled`: those of partitions that several workers send at once.
- `PublishResult.tally`: the sums over partitions and their outcomes.
- `Publisher.publish`: all of it, after the records are partitioned.
-/

namespace Telemetry

/-- What became of the records of one cycle. There is one error text for each failed
partition. -/
structure PublishResult where
  partitionsSent : Int := 0
  partitionsFailed : Int := 0
  recordsSent : Int := 0
  recordsDropped : Int := 0
  errors : List String := []
  deriving DecidableEq, Repr

namespace PublishResult

def success (r : PublishResult) : Bool := r.partitionsFailed == 0

def add {α : Type} (r : PublishResult) (part : List α) : Option Fault → PublishResult
  | none =>
    { r with
      partitionsSent := r.partitionsSent + 1
      recordsSent := r.recordsSent + part.length }
  | some fault =>
    { r with
      partitionsFailed := r.partitionsFailed + 1
      recordsDropped := r.recordsDropped + part.length
      errors := r.errors ++ [fault.message] }

def tally {α : Type} (outcomes : List (List α × Option Fault)) : PublishResult :=
  outcomes.foldl (fun r p => r.add p.1 p.2) {}

end PublishResult

namespace Publisher

variable {σ : Type}

/-- The outcome of a partition: nothing, or what went wrong. -/
def send (client : Client σ) (project : String) (part : List TimeSeries) (s : σ) :
    Option Fault × σ :=
  match client.write project part s with
  | (.ok _, s) => (none, s)
  | (.error fault, s) => (some fault, s)

def sendAll (client : Client σ) (project : String) :
    List (List TimeSeries) → σ → List (Option Fault) × σ
  | [], s => ([], s)
  | part :: rest, s =>
    let first := send client project part s
    let later := sendAll client project rest first.2
    (first.1 :: later.1, later.2)

/-! ## Several workers -/

abbrev Numbered := Nat × List TimeSeries

/-- The partitions that no worker has taken yet, those that are under way, and the outcomes of
the others, each under its number. -/
structure Pool where
  waiting : List Numbered
  underWay : List Numbered
  answered : List (Nat × Option Fault)

namespace Pool

/-- All partitions wait in their order. -/
def ofParts (parts : List (List TimeSeries)) : Pool :=
  ⟨(List.range parts.length).zip parts, [], []⟩

/-- The workers that are idle take the next partitions. -/
def fill (workers : Nat) (pool : Pool) : Pool :=
  let idle := workers - pool.underWay.length
  { pool with
    waiting := pool.waiting.drop idle
    underWay := pool.underWay ++ pool.waiting.take idle }

/-- One of the partitions under way is written, and its outcome filed. -/
def answer (client : Client σ) (project : String) (pool : Pool) (s : σ) : Pool × σ :=
  let place := client.pick s % pool.underWay.length
  match pool.underWay[place]? with
  | none => (pool, s)
  | some p =>
    let sent := send client project p.2 s
    ({ pool with
        underWay := pool.underWay.eraseIdx place
        answered := pool.answered ++ [(p.1, sent.1)] }, sent.2)

/-- As many answers, before each of which the idle workers take what waits. -/
def answerAll (client : Client σ) (project : String) (workers : Nat) :
    Nat → Pool → σ → Pool × σ
  | 0, pool, s => (pool, s)
  | n + 1, pool, s =>
    let next := answer client project (pool.fill workers) s
    answerAll client project workers n next.1 next.2

/-- The outcomes in the order of the partitions, whatever the order in which they came. -/
def outcomes (pool : Pool) (parts : Nat) : List (Option Fault) :=
  (List.range parts).filterMap fun i => Pairs.get? i pool.answered

end Pool

def sendPooled (client : Client σ) (project : String) (workers : Nat)
    (parts : List (List TimeSeries)) (s : σ) : Pool × σ :=
  Pool.answerAll client project workers parts.length (.ofParts parts) s

/-! ## Publication -/

def noticesOf (outcomes : List (Option Fault)) : List Notice :=
  (outcomes.filterMap id).map .partitionNotSent

/-- The partitions of a configuration. The number of workers is looked at after the records are
partitioned; it has to be a number. -/
def partitions (config : ExportConfig) (records : List TimeSeries) :
    Except Fault (List (List TimeSeries)) := do
  let parts ← Partition.ofListBy (← config.partitionSize) records
  let _ ← config.maxWorkers.moreThan 1
  return parts

/-- The number of workers. Above one there are as many as the setting says, but none without a
partition to send. -/
def workers (config : ExportConfig) (parts : Nat) : Nat :=
  match config.maxWorkers.number? with
  | none => 1
  | some n => if n.gtInt 1 then (List.range parts).countP fun i : Nat => n.gtInt i else 1

/-- Sends records: what became of them, the service afterwards, and the notices. -/
def publish (config : ExportConfig) (client : Client σ) (records : List TimeSeries) (s : σ) :
    Except Fault PublishResult × σ × List Notice :=
  match partitions config records with
  | .error fault => (.error fault, s, [])
  | .ok parts =>
    let crew := workers config parts.length
    if 1 < crew then
      let sent := sendPooled client config.projectName crew parts s
      (.ok (.tally (parts.zip (sent.1.outcomes parts.length))), sent.2,
        noticesOf (sent.1.answered.map (·.2)))
    else
      let sent := sendAll client config.projectName parts s
      (.ok (.tally (parts.zip sent.1)), sent.2, noticesOf sent.1)

end Publisher
end Telemetry

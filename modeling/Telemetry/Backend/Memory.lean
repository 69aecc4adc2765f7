import Telemetry.Backend.Client

/-!
A monitoring service in memory: it keeps what it was sent, and fails on demand.

- `MemoryBackend.client`: the connection to it.
- `MemoryBackend.seed`: descriptors it knows beforehand.
- `Outages`: calls that break before anything is recorded, each with the text of its error.
-/

namespace Telemetry

/-- Which calls break at once. -/
structure Outages where
  write : Option String := none
  create : Option String := none
  list : Option String := none
  close : Option String := none
  deriving DecidableEq, Repr

/-- What the service knows, what it was asked, and what it refuses.

- `existing`: the descriptors it lists.
- `descriptors`: the descriptors it accepted.
- `requests`, `creations`, `listings`: the accepted writes, and the attempted creations and
  listings, oldest first. -/
structure MemoryBackend where
  existing : OrderedMap String MetricKind := .empty
  descriptors : OrderedMap String MetricDescriptor := .empty
  requests : List (List TimeSeries) := []
  creations : List MetricDescriptor := []
  listings : List String := []
  refusesWrites : Bool := false
  refusesCreations : Bool := false
  refusesListings : Bool := false
  outages : Outages := {}
  closed : Bool := false

namespace MemoryBackend

instance : Inhabited MemoryBackend := ⟨{}⟩

/-- Raises the error of an outage, else goes on. -/
def unlessOut {α σ : Type} (outage : Option String) (call : σ → Except Fault α × σ) (s : σ) :
    Except Fault α × σ :=
  match outage with
  | some text => (.error (.raised text), s)
  | none => call s

def write (records : List TimeSeries) (s : MemoryBackend) :
    Except Fault Unit × MemoryBackend :=
  if s.refusesWrites then (.error (.rejected "time series rejected" (some 400)), s)
  else (.ok (), { s with requests := s.requests ++ [records] })

/-- A creation is recorded also when it is refused. -/
def create (d : MetricDescriptor) (s : MemoryBackend) : Except Fault Unit × MemoryBackend :=
  let s := { s with creations := s.creations ++ [d] }
  if s.refusesCreations then (.error (.rejected "descriptor rejected" (some 400)), s)
  else (.ok (), { s with descriptors := s.descriptors.insert d.type d })

/-- A listing is recorded also when it is refused. Every existing descriptor matches. -/
def list (filter : String) (s : MemoryBackend) :
    Except Fault (List (Value × MetricKind)) × MemoryBackend :=
  let s := { s with listings := s.listings ++ [filter] }
  if s.refusesListings then (.error (.rejected "listing failed" (some 503)), s)
  else (.ok (s.existing.entries.map fun e => (.text e.1, e.2)), s)

def close (s : MemoryBackend) : Except Fault Unit × MemoryBackend :=
  (.ok (), { s with closed := true })

/-- Adds descriptors to those that the service lists, up to the first whose kind has no such
name. -/
def seed (s : MemoryBackend) : List (String × String) → Except Fault Unit × MemoryBackend
  | [] => (.ok (), s)
  | (type, word) :: rest =>
    match MetricKind.ofName word with
    | .error fault => (.error fault, s)
    | .ok kind => seed { s with existing := s.existing.insert type kind } rest

def client : Client MemoryBackend where
  write _ records s := unlessOut s.outages.write (write records) s
  create _ d s := unlessOut s.outages.create (create d) s
  list _ filter s := unlessOut s.outages.list (list filter) s
  close s := unlessOut s.outages.close close s

end MemoryBackend
end Telemetry

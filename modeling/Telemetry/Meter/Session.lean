import Telemetry.Meter.Registry

/-!
A session with a registry: meters are held by names of the holder's choice, and so are the
tasks that were started; the monotonic clock stands still until it is set.

- `MeterSession.register`: registers a meter and holds it under a name. A name that is taken
  keeps its meter.
- `MeterSession.meter`: the meter held under a name.
- `MeterSession.startTask`, `stopTask`: long tasks by name.
-/

namespace Telemetry

structure MeterSession where
  registry : Registry := .empty
  now : Binary64 := .zero
  handles : OrderedMap String MeterHandle := .empty
  tasks : OrderedMap String (MeterHandle × Nat) := .empty

namespace MeterSession

instance : Inhabited MeterSession := ⟨{}⟩

def meter (s : MeterSession) (name : String) : Except Fault (MeterHandle × Meter) :=
  match (s.handles.get? name).bind fun h => (s.registry.meter? h).map (h, ·) with
  | some held => .ok held
  | none => .error (.notHeld name)

def nameOf? (s : MeterSession) (handle : MeterHandle) : Option String :=
  (s.handles.entries.find? (·.2 = handle)).map (·.1)

def put (s : MeterSession) (handle : MeterHandle) (m : Meter) : MeterSession :=
  { s with registry := s.registry.put handle m }

def register (s : MeterSession) (held name : String) (tags : OrderedMap String String)
    (description : Option String) (type : MeterType) (make : Except Fault MeterState) :
    Except Fault (MeterHandle × MeterSession) := do
  let (handle, registry) ← s.registry.register name tags description type make
  return (handle, { s with registry, handles := s.handles.insertNew held handle })

def startTask (s : MeterSession) (handle : MeterHandle) (m : Meter) (task : String) :
    Except Fault MeterSession := do
  let (id, m) ← m.startTask s.now
  return { s.put handle m with tasks := s.tasks.insert task (handle, id) }

def stopTask (s : MeterSession) (task : String) : Except Fault (Binary64 × MeterSession) :=
  match (s.tasks.get? task).bind fun t => (s.registry.meter? t.1).map (t.1, t.2, ·) with
  | some (handle, id, m) =>
    (m.stopTask id s.now).map fun stopped => (stopped.1, s.put handle stopped.2)
  | none => .error (.notHeld task)

def addGauge (s : MeterSession) (name : String) (x : Binary64) : Except Fault MeterSession := do
  let (handle, registry) ← s.registry.register name .empty none .gauge (.ok (.gauge {}))
  match registry.meter? handle with
  | some m => return { s with registry := registry.put handle (← m.set x) }
  | none => return { s with registry }

/-- Registers the gauges `g0`, `g1`, … and sets each to its number, up to the first that
fails. -/
def addGauges (s : MeterSession) : (count : Nat) → Except Fault Unit × MeterSession
  | 0 => (.ok (), s)
  | n + 1 =>
    match addGauges s n with
    | (.error fault, s) => (.error fault, s)
    | (.ok _, s) =>
      match s.addGauge ("g" ++ Decimal.integer n) (Binary64.ofInt n) with
      | .error fault => (.error fault, s)
      | .ok s => (.ok (), s)

def snapshot (s : MeterSession) : Except Fault (List Snapshot) × MeterSession :=
  let taken := s.registry.snapshot s.now
  (taken.1, { s with registry := taken.2 })

end MeterSession
end Telemetry

import Telemetry.Meter.Basic

/-!
The registry: one meter per name and tags. A meter is known by the handle under which it
was made; a handle outlives the registration, so a removed meter can still be used.

- `Registry.register`: the registered meter of that name and tags, or a new one.
- `Registry.remove`: takes out the meter registered under the name and tags of a handle.
- `Registry.snapshot`: one snapshot per registered meter, in the order of registration.
-/

namespace Telemetry

/-- The number of a meter, in the order in which the registry made them. -/
abbrev MeterHandle := Nat

abbrev MeterKey := String × List (String × String)

/-- All meters ever made, and which of them are registered under which key. -/
structure Registry where
  made : List Meter
  registered : OrderedMap MeterKey MeterHandle

namespace Registry

def empty : Registry := ⟨[], .empty⟩

instance : Inhabited Registry := ⟨empty⟩

def key (id : MeterId) : MeterKey := (id.name, id.tags)

def meter? (r : Registry) (handle : MeterHandle) : Option Meter := r.made[handle]?

def handles (r : Registry) : List MeterHandle := r.registered.values

def meters (r : Registry) : List Meter := r.handles.filterMap r.meter?

def size (r : Registry) : Nat := r.registered.size

/-- Registers a meter: the one already there if it has the same type, an error if it has
another, else a new one in the state that `make` gives. -/
def register (r : Registry) (name : String) (tags : OrderedMap String String)
    (description : Option String) (type : MeterType) (make : Except Fault MeterState) :
    Except Fault (MeterHandle × Registry) :=
  let id := MeterId.create name tags description type
  match (r.registered.get? (key id)).bind fun h => (r.meter? h).map fun m => (h, m) with
  | some (handle, existing) =>
    if existing.type = type then .ok (handle, r)
    else .error (.meterKindClash name existing.type.name)
  | none => do
    let state ← make
    let handle := r.made.length
    return (handle, ⟨r.made ++ [⟨id, state⟩], r.registered.insert (key id) handle⟩)

def put (r : Registry) (handle : MeterHandle) (m : Meter) : Registry :=
  { r with made := r.made.set handle m }

def modify (r : Registry) (handle : MeterHandle) (f : Meter → Meter) : Registry :=
  { r with made := r.made.modify handle f }

def snapshotOne (now : Binary64) (r : Registry) (handle : MeterHandle) :
    Option (Except Fault Snapshot) × Registry :=
  match r.meter? handle with
  | some m =>
    let s := m.snapshot now
    (some s.1, r.put handle s.2)
  | none => (none, r)

def snapshotAll (now : Binary64) (r : Registry) :
    List MeterHandle → Except Fault (List Snapshot) × Registry
  | [] => (.ok [], r)
  | handle :: rest =>
    match snapshotOne now r handle with
    | (some (.error fault), r) => (.error fault, r)
    | (none, r) => snapshotAll now r rest
    | (some (.ok s), r) =>
      let later := snapshotAll now r rest
      (later.1.map (s :: ·), later.2)

def snapshot (now : Binary64) (r : Registry) : Except Fault (List Snapshot) × Registry :=
  snapshotAll now r r.handles

/-- Takes out the meter registered under the name and tags of a meter: whether there was
one. -/
def remove (r : Registry) (handle : MeterHandle) : Bool × Registry :=
  match r.meter? handle with
  | some m =>
    (r.registered.contains (key m.id), { r with registered := r.registered.erase (key m.id) })
  | none => (false, r)

def clear (r : Registry) : Registry := { r with registered := .empty }

end Registry
end Telemetry

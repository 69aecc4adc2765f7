import Telemetry.Meter.Session

/-!
Sources of snapshots for an exporter.

- `SnapshotSource`: anything that can be asked for snapshots.
- `SessionSource`: a session, with snapshots of other origin after its own, which can be
  made to break.
-/

namespace Telemetry

abbrev SnapshotSource (ρ : Type) := ρ → Except Fault (List Snapshot) × ρ

structure SessionSource where
  session : MeterSession := {}
  outage : Option String := none
  extra : List Snapshot := []

namespace SessionSource

instance : Inhabited SessionSource := ⟨{}⟩

def snapshot : SnapshotSource SessionSource := fun s =>
  match s.outage with
  | some text => (.error (.raised text), s)
  | none =>
    let taken := s.session.snapshot
    (taken.1.map (· ++ s.extra), { s with session := taken.2 })

end SessionSource
end Telemetry

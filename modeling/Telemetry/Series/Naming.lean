import Telemetry.Meter.Id
import Telemetry.Text.Replace

/-!
Naming conventions: how the names and tags of meters become those of the monitoring
service.

- `NamingConvention.identity`: everything keeps its name.
- `NamingConvention.replacing`: parts of names are replaced.
-/

namespace Telemetry

/-- A mapping of names, which may refuse a meter, and of tags, which may not. -/
structure NamingConvention where
  name : MeterId → Except Fault String
  tagKey : String → String
  tagValue : String → String

namespace NamingConvention

def identity : NamingConvention := ⟨fun id => .ok id.name, id, id⟩

def replaceAll (pairs : List (String × String)) (s : String) : String :=
  Text.ofPoints (pairs.foldl
    (fun ns p => Text.replace (Text.points p.1) (Text.points p.2) ns) (Text.points s))

/-- The convention that replaces parts of names, tag keys and tag values. Meters whose own
name contains `refused` are refused, unless it is empty. -/
def replacing (names keys values : List (String × String)) (refused : String) :
    NamingConvention where
  name id :=
    if refused ≠ "" ∧ Text.occurs (Text.points refused) (Text.points id.name) then
      .error (.raised "naming failed")
    else .ok (replaceAll names id.name)
  tagKey := replaceAll keys
  tagValue := replaceAll values

/-- The tags of a meter under a convention; of keys that become equal the last counts. -/
def labels (naming : NamingConvention) (id : MeterId) : OrderedMap String String :=
  .ofList (id.tags.map fun t => (naming.tagKey t.1, naming.tagValue t.2))

end NamingConvention
end Telemetry

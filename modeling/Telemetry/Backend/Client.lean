import Telemetry.Series.Descriptor
import Telemetry.Series.Record

/-!
Connections to the monitoring service. A client is its calls: each may fail and changes the
state of the service, which is any type.
-/

namespace Telemetry

/-- A connection to a monitoring service with states `σ`.

- `write`: writes the time series of one request to a project.
- `create`: registers a metric descriptor.
- `list`: the metric types that match a filter, with their kinds. A type is what the service
  says it is, so it may be any value.
- `close`: releases the connection.
- `pick`: of several writes under way, the place of the one that is answered next. -/
structure Client (σ : Type) where
  write : String → List TimeSeries → σ → Except Fault Unit × σ
  create : String → MetricDescriptor → σ → Except Fault Unit × σ
  list : String → String → σ → Except Fault (List (Value × MetricKind)) × σ
  close : σ → Except Fault Unit × σ
  pick : σ → Nat := fun _ => 0

def callWithin {σ τ α : Type} (part : τ → σ) (put : σ → τ → τ)
    (call : σ → Except Fault α × σ) (t : τ) : Except Fault α × τ :=
  let r := call (part t)
  (r.1, put r.2 t)

/-- A client of a service whose state is one part of a larger state. -/
def Client.within {σ τ : Type} (part : τ → σ) (put : σ → τ → τ) (client : Client σ) :
    Client τ where
  write project records := callWithin part put (client.write project records)
  create project d := callWithin part put (client.create project d)
  list project filter := callWithin part put (client.list project filter)
  close := callWithin part put client.close
  pick := client.pick ∘ part

end Telemetry

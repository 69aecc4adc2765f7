import Telemetry.Proofs.Exporter.Runs
import Telemetry.Proofs.Publication.Audit

/-!
Publish cycles through a service that may fail at every call.

Proved here:

* `publish_ok`: a cycle whose records can be published has a result, and remembers it;
* `publish_contained`: under a configuration of positive integers no failure of the service leaves
  a cycle, and the result agrees with the replies to its writes.
-/

namespace Telemetry

variable {σ ρ : Type}

theorem Client.keeps_auditing (client : Client σ) (replies : Replies) :
    client.auditing.Keeps fun t => t.2 = replies :=
  ⟨fun _ _ _ h => h, fun _ _ _ h => h⟩

namespace Exporter

/-- The records of a cycle, and the state after they are built. -/
def gather (e : Exporter σ ρ) (client : Client σ) (snapshots : List Snapshot) :
    List TimeSeries × BuildState σ :=
  (e.builder client).buildAll snapshots e.buildState

section Publish

variable {e : Exporter σ ρ} {client : Client σ} (hclient : e.client = some client)
  {snapshots : List Snapshot} (hsource : (e.setup.source e.source).1 = .ok snapshots)

include hclient hsource

theorem publish_ok {result : PublishResult}
    (h : (Publisher.publish e.config client (e.gather client snapshots).1
      (e.gather client snapshots).2.backend).1 = .ok result) :
    e.publish.1 = .ok (some result) ∧ e.publish.2.1.lastResult = some result ∧
      e.publish.2.1.backend = (Publisher.publish e.config client (e.gather client snapshots).1
        (e.gather client snapshots).2.backend).2.1 := by
  rw [gather, builder, buildState] at h ⊢
  rw [publish, hclient]
  dsimp only
  rw [hsource]
  dsimp only [transmit, config] at h ⊢
  rw [h]
  exact ⟨rfl, rfl, rfl⟩

end Publish

/-- A cycle that contains all failures.

- `returned`, `remembered`: it has a result and raises nothing, and the result is kept.
- `advanced`: the next window starts after the wall time of the cycle.
- `audited`: the result accounts for all records that were built, and its failures are those of
  the writes.
- `finishes`, `overlapped`: the same is true of workers that send the partitions at once, and they
  never get stuck. -/
structure Contained (e : Exporter (σ × Replies) ρ) (client : Client (σ × Replies))
    (snapshots : List Snapshot) (workers : Nat) (result : PublishResult) : Prop where
  returned : e.publish.1 = .ok (some result)
  remembered : e.publish.2.1.lastResult = some result
  advanced : e.publish.2.1.previousEnd = e.now
  audited : result.Audited (e.gather client snapshots).1 e.backend.2 e.publish.2.1.backend.2
  finishes : ∀ parts, Publisher.partitions e.config (e.gather client snapshots).1 = .ok parts →
    ∀ x, Publisher.Pool.Run client e.config.projectName workers
        (.ofParts parts, (e.gather client snapshots).2.backend) x →
      ∃ pool after, Publisher.Pool.Run client e.config.projectName workers x (pool, after) ∧
        pool.Finished
  overlapped : ∀ parts, Publisher.partitions e.config (e.gather client snapshots).1 = .ok parts →
    ∀ pool after, Publisher.Pool.Sent client e.config.projectName workers parts
        (e.gather client snapshots).2.backend pool after →
      (PublishResult.tally (parts.zip (pool.outcomes parts.length))).Audited
        (e.gather client snapshots).1 e.backend.2 after.2

/-- **Containment.** Whatever calls of the service fail, a cycle has a result that agrees with the
replies to its writes. -/
theorem publish_contained {e : Exporter (σ × Replies) ρ} {client : Client σ}
    (hclient : e.client = some client.auditing) {snapshots : List Snapshot}
    (hsource : (e.setup.source e.source).1 = .ok snapshots) {batch workers : Int}
    (hbatch : e.config.batchSize.number? = some (.int batch)) (hpos : 1 ≤ batch)
    (hworkers : e.config.maxWorkers.number? = some (.int workers)) (hwork : 1 ≤ workers) :
    ∃ result, e.Contained client.auditing snapshots workers.toNat result := by
  -- Building lists and creates only, so the replies to writes are those of the publication.
  have hbuilt : (e.gather client.auditing snapshots).2.backend.2 = e.backend.2 :=
    (e.builder client.auditing).buildAll_keeps (client.keeps_auditing e.backend.2) snapshots rfl
  obtain ⟨result, hresult, haudited⟩ := Publisher.publish_audited hbatch hpos hworkers client
    (e.gather client.auditing snapshots).1 (e.gather client.auditing snapshots).2.backend
  obtain ⟨hreturned, hremembered, hbackend⟩ := publish_ok hclient hsource hresult
  obtain ⟨_, _, hpublish⟩ := publish_spec hclient
  refine ⟨result, hreturned, hremembered, by rw [hpublish], ?_, ?_, ?_⟩
  · rwa [hbackend, ← hbuilt]
  · exact fun _ _ x _ => Publisher.Pool.exists_finished (by omega) x
  · intro parts hparts pool after hsent
    rw [← Publisher.flatten_of_partitions hparts, ← hbuilt]
    exact hsent.audited

/-- A service that lists and creates nothing, and refuses every other write. -/
def grudging : Client Nat where
  write _ _ n := (if n % 2 = 0 then .error (.raised "not now") else .ok (), n + 1)
  create _ _ n := (.error (.raised "no"), n)
  list _ _ n := (.error (.raised "no"), n)
  close n := (.ok (), n)

/-- Three gauges, and something that cannot be built. -/
def grudgingSetup : ExporterSetup (Nat × Replies) Unit where
  config :=
    { projectId := .text "p", stepSeconds := .int 60, timeoutSeconds := .int 30
      batchSize := .int 2, maxWorkers := .int 3 }
  connect t := (.ok grudging.auditing, t)
  source s :=
    (.ok [⟨⟨"a", [], none, .gauge⟩, .gauge .zero⟩, ⟨⟨"odd", [], none, .other⟩, .foreign "Odd"⟩,
      ⟨⟨"b", [], none, .gauge⟩, .gauge .zero⟩, ⟨⟨"c", [], none, .gauge⟩, .gauge .zero⟩], s)

def grudgingExporter : Exporter (Nat × Replies) Unit :=
  attach grudging.auditing
    { setup := grudgingSetup, schedule := .ofMillis 60000, scheduler := .idle, client := none
      cache := none, previousEnd := 10, lastResult := none, now := 25, backend := (0, [])
      source := () }

theorem publish_contained_grudging :
    ∃ snapshots, (grudgingExporter.setup.source ()).1 = .ok snapshots ∧
      ∃ result, grudgingExporter.Contained grudging.auditing snapshots 3 result ∧
        result = ⟨1, 1, 1, 2, ["not now"]⟩ := by
  have hclient : grudgingExporter.client = some grudging.auditing := rfl
  have hbatch : grudgingExporter.config.batchSize.number? = some (.int 2) := rfl
  have hworkers : grudgingExporter.config.maxWorkers.number? = some (.int 3) := rfl
  refine ⟨_, rfl, ?_⟩
  obtain ⟨result, h⟩ := publish_contained hclient rfl hbatch (by decide) hworkers (by decide)
  exact ⟨result, h, Option.some.inj (Except.ok.inj h.returned).symm⟩

end Exporter
end Telemetry

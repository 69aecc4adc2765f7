import Telemetry.Exporter
import Telemetry.Proofs.Publication.Publisher
import Telemetry.Proofs.Series.Building

/-!
Runs of an exporter whose connections note every write, and the publish cycles of a run.

Proved here:

* `start_spec`, `stop_spec`, `publish_spec`: what each of them changes;
* `journal_publish`: a cycle writes the partitions of the records that it built, in whatever order,
  and nothing else;
* `Connected.apply`: every connection of a run notes its writes;
* `journal_run`: what was written in a run is what its cycles wrote;
* `Connected.forall_cycles`: hence what holds of each cycle holds of those of a run.
-/

namespace Telemetry

variable {σ ρ ω : Type}

/-- The writes to a service, oldest first. -/
abbrev Journal := List (List TimeSeries)

/-- A setup whose connections note every write. -/
def ExporterSetup.journaling (setup : ExporterSetup σ ρ) : ExporterSetup (σ × Journal) ρ where
  config := setup.config
  naming := setup.naming
  connect t :=
    let reply := setup.connect t.1
    (reply.1.map (·.journaling), reply.2, t.2)
  source := setup.source

theorem Client.keeps_journaling (client : Client σ) (journal : Journal) :
    client.journaling.Keeps fun t => t.2 = journal :=
  ⟨fun _ _ _ h => h, fun _ _ _ h => h⟩

namespace Exporter

/-! ## Cycles -/

/-- A publish cycle: its window, the wall time, the snapshots that were built with their
records, those that failed with their faults, and what was written. -/
structure Cycle where
  window : BatchWindow
  time : Int
  blocks : List (Snapshot × List TimeSeries)
  failures : List (Snapshot × Fault)
  written : Journal

/-- The records of a cycle. -/
def Cycle.records (cycle : Cycle) : List TimeSeries := cycle.blocks.flatMap (·.2)

/-- The builder of the next cycle. -/
def builder (e : Exporter σ ρ) (client : Client σ) : SeriesBuilder σ :=
  ⟨e.config, e.nextWindow, e.setup.naming, client⟩

/-- The state that the next cycle's records are built from. -/
def buildState (e : Exporter σ ρ) : BuildState σ := ⟨e.cache, e.backend, []⟩

/-- The cycle of an exporter that publishes through a client. -/
def cycleOf (e : Exporter (σ × Journal) ρ) (client : Client (σ × Journal)) : Cycle where
  window := e.nextWindow
  time := e.now
  blocks :=
    match (e.setup.source e.source).1 with
    | .error _ => []
    | .ok snapshots => (e.builder client).blocks snapshots e.buildState
  failures :=
    match (e.setup.source e.source).1 with
    | .error _ => []
    | .ok snapshots => (e.builder client).failures snapshots e.buildState
  written := e.publish.2.1.backend.2.drop e.backend.2.length

/-! ## Starts, stops and cycles -/

/-- A new exporter has the connection that it is given, and no cycle ended yet. -/
theorem create_spec {setup : ExporterSetup σ ρ} {client : Option (Client σ)} {now : Int}
    {backend : σ} {source : ρ} {e : Exporter σ ρ}
    (h : create setup client now backend source = .ok e) :
    ∃ schedule, e =
      { setup, schedule, client, now, backend, source, scheduler := .idle
        cache := client.map fun _ => .empty, previousEnd := now, lastResult := none } := by
  obtain ⟨_, -, h⟩ := Fault.exists_of_bind_eq_ok h
  obtain ⟨schedule, -, h⟩ := Fault.exists_of_bind_eq_ok h
  cases client with
  | none => exact ⟨schedule, (Except.ok.inj h).symm⟩
  | some client => exact ⟨schedule, (Except.ok.inj h).symm⟩

/-- What a start comes to: the scheduler aside nothing, a connection that failed, or a
connection. -/
inductive Started (e : Exporter σ ρ) : Exporter σ ρ → Prop
  | kept (scheduler : Scheduler) : Started e { e with scheduler }
  | refused {fault : Fault} {backend : σ} (hnone : e.client = none)
    (h : e.setup.connect e.backend = (.error fault, backend)) : Started e { e with backend }
  | attached {client : Client σ} {backend : σ} {scheduler : Scheduler} (hnone : e.client = none)
    (h : e.setup.connect e.backend = (.ok client, backend)) :
    Started e
      { e with
        scheduler, client := some client, cache := some .empty, previousEnd := e.now, backend }

theorem start_spec (e : Exporter σ ρ) : Started e e.start.1 := by
  rw [start]
  split
  · exact .kept e.scheduler
  · split
    · exact .kept e.scheduler
    · split
      · exact .kept _
      · next hnone =>
        split
        · next h => exact .refused hnone h
        · next h => exact .attached hnone h

/-- After a stop there is no connection; the service may have seen it closed. -/
theorem stop_spec (e : Exporter σ ρ) :
    ∃ backend, e.stop.1 =
        { e with scheduler := e.scheduler.stop, client := none, cache := none, backend } ∧
      (backend = e.backend ∨
        ∃ client, e.client = some client ∧ backend = (client.close e.backend).2) := by
  rw [stop]
  split
  · exact ⟨e.backend, rfl, Or.inl rfl⟩
  · next client hclient =>
    split
    · next h => exact ⟨_, rfl, Or.inr ⟨client, hclient, by rw [h]⟩⟩
    · next h => exact ⟨_, rfl, Or.inr ⟨client, hclient, by rw [h]⟩⟩

theorem publish_none {e : Exporter σ ρ} (h : e.client = none) : e.publish.2.1 = e := by
  rw [publish, h]

/-- The service after the next cycle. -/
def sentTo (e : Exporter σ ρ) (client : Client σ) : σ :=
  match (e.setup.source e.source).1 with
  | .error _ => e.backend
  | .ok snapshots =>
    let built := (e.builder client).buildAll snapshots e.buildState
    (Publisher.publish e.config client built.1 built.2.backend).2.1

/-- A cycle takes the snapshots and moves the previous end to the wall time, whatever becomes
of it. -/
theorem publish_spec {e : Exporter σ ρ} {client : Client σ} (h : e.client = some client) :
    ∃ cache lastResult, e.publish.2.1 =
      { e with
        cache, lastResult, previousEnd := e.now, source := (e.setup.source e.source).2
        backend := e.sentTo client } := by
  rw [publish, h]
  dsimp only
  split
  · next hsource => exact ⟨e.cache, e.lastResult, by simp only [sentTo, hsource]⟩
  · next snapshots hsource =>
    simp only [transmit, sentTo, hsource]
    split
    · exact ⟨_, _, rfl⟩
    · exact ⟨_, _, rfl⟩

/-! ## What a cycle writes -/

section Written

variable {e : Exporter (σ × Journal) ρ} {client : Client σ}
  (h : e.client = some client.journaling)

/-- A cycle whose snapshots fail builds and writes nothing; any other writes the partitions
of its records. -/
theorem journal_sentTo (e : Exporter (σ × Journal) ρ) (client : Client σ) :
    ∃ written, (e.sentTo client.journaling).2 = e.backend.2 ++ written ∧
      ((e.cycleOf client.journaling).blocks = [] ∧ written = [] ∨
        written.Perm ((Publisher.partitions e.config
          (e.cycleOf client.journaling).records).toOption.getD [])) := by
  cases hsource : (e.setup.source e.source).1 with
  | error fault => exact ⟨[], by simp [sentTo, hsource], Or.inl ⟨by simp [cycleOf, hsource], rfl⟩⟩
  | ok snapshots =>
    have hbuilt := (e.builder client.journaling).buildAll_keeps
      (client.keeps_journaling e.backend.2) snapshots
      (show e.buildState.backend.2 = e.backend.2 from rfl)
    obtain ⟨written, hjournal, hperm, -⟩ := Publisher.publish_journaling e.config client
      ((e.builder client.journaling).buildAll snapshots e.buildState).1
      ((e.builder client.journaling).buildAll snapshots e.buildState).2.backend
    refine ⟨written, ?_, Or.inr ?_⟩
    · simp only [sentTo, hsource]
      rw [hjournal, hbuilt]
    · simp only [Cycle.records, cycleOf, hsource]
      rwa [← SeriesBuilder.buildAll_eq]

include h

/-- **What a cycle writes.** -/
theorem journal_publish :
    e.publish.2.1.backend.2 = e.backend.2 ++ (e.cycleOf client.journaling).written ∧
      ((e.cycleOf client.journaling).blocks = [] ∧
          (e.cycleOf client.journaling).written = [] ∨
        (e.cycleOf client.journaling).written.Perm ((Publisher.partitions e.config
          (e.cycleOf client.journaling).records).toOption.getD [])) := by
  obtain ⟨cache, lastResult, hpublish⟩ := publish_spec h
  obtain ⟨written, hsent, hwritten⟩ := journal_sentTo e client
  have hjournal : e.publish.2.1.backend.2 = e.backend.2 ++ written := by rw [hpublish]; exact hsent
  have heq : (e.cycleOf client.journaling).written = written := by
    show e.publish.2.1.backend.2.drop e.backend.2.length = written
    rw [hjournal, List.drop_left]
  rw [heq]
  exact ⟨hjournal, hwritten⟩

theorem mem_records_of_written {r : TimeSeries}
    (hr : r ∈ (e.cycleOf client.journaling).written.flatten) :
    r ∈ (e.cycleOf client.journaling).records := by
  rcases (journal_publish h).2 with ⟨-, hwritten⟩ | hwritten
  · rw [hwritten] at hr
    cases hr
  · rw [hwritten.flatten.mem_iff] at hr
    cases hparts : Publisher.partitions e.config (e.cycleOf client.journaling).records with
    | error fault => rw [hparts] at hr; cases hr
    | ok parts =>
      rw [hparts, Except.toOption, Option.getD_some,
        Publisher.flatten_of_partitions hparts] at hr
      exact hr

/-- Under a configuration of positive integers every record of the cycle is written once. -/
theorem flatten_written {batch workers : Int}
    (hbatch : e.config.batchSize.number? = some (.int batch)) (hpos : 1 ≤ batch)
    (hworkers : e.config.maxWorkers.number? = some (.int workers)) :
    (e.cycleOf client.journaling).written.flatten.Perm
      (e.cycleOf client.journaling).records := by
  rcases (journal_publish h).2 with ⟨hblocks, hwritten⟩ | hwritten
  · rw [hwritten, Cycle.records, hblocks]
    exact List.Perm.refl _
  · have hparts := Publisher.partitions_eq hbatch hpos hworkers
      (e.cycleOf client.journaling).records
    rw [hparts, Except.toOption, Option.getD_some] at hwritten
    exact hwritten.flatten.trans (List.Perm.of_eq (Publisher.flatten_of_partitions hparts))

theorem interval_of_written {r : TimeSeries}
    (hr : r ∈ (e.cycleOf client.journaling).written.flatten) :
    r.point.interval = .ofWindow (e.cycleOf client.journaling).window r.kind := by
  have hmem := mem_records_of_written h hr
  rw [Cycle.records, cycleOf] at hmem
  dsimp only at hmem
  split at hmem
  · cases hmem
  · rw [← SeriesBuilder.buildAll_eq] at hmem
    exact (e.builder client.journaling).interval_of_mem_buildAll hmem

end Written

/-! ## Runs -/

/-- What happens to an exporter and around it: the service, the workers of the scheduler and
the meters go on by themselves. -/
inductive Action (σ ω : Type) where
  | start
  | stop
  | publish
  | advance (millis : Int) (seconds : Binary64)
  | service (change : σ → σ)
  | workers (change : Scheduler → Scheduler)
  | meters (op : ω)

/-- An action, where `act` says what operations on the meters do. A wall time that cannot be
reached is not set. -/
def Action.apply (act : ω → ρ → ρ) :
    Action σ ω → Exporter (σ × Journal) ρ → Exporter (σ × Journal) ρ
  | .start, e => e.start.1
  | .stop, e => e.stop.1
  | .publish, e => e.publish.2.1
  | .advance millis seconds, e => (e.advance millis seconds).toOption.getD e
  | .service change, e => { e with backend := (change e.backend.1, e.backend.2) }
  | .workers change, e => { e with scheduler := change e.scheduler }
  | .meters op, e => { e with source := act op e.source }

/-- The exporter after actions in turn. -/
def runAll (act : ω → ρ → ρ) (actions : List (Action σ ω)) (e : Exporter (σ × Journal) ρ) :
    Exporter (σ × Journal) ρ :=
  actions.foldl (fun e action => action.apply act e) e

/-- The cycle of an action, if it publishes and finds a connection. -/
def Action.cycle? (action : Action σ ω) (e : Exporter (σ × Journal) ρ) : Option Cycle :=
  match action with
  | .publish => e.client.map e.cycleOf
  | _ => none

/-- The cycles of a run. -/
def cycles (act : ω → ρ → ρ) : List (Action σ ω) → Exporter (σ × Journal) ρ → List Cycle
  | [], _ => []
  | action :: rest, e => (action.cycle? e).toList ++ cycles act rest (action.apply act e)

/-- Every connection notes its writes, and meets a condition. -/
structure Connected (setup : ExporterSetup σ ρ) (Q : Client σ → Prop)
    (e : Exporter (σ × Journal) ρ) : Prop where
  setup_eq : e.setup = setup.journaling
  client_eq : ∀ client, e.client = some client → ∃ c, Q c ∧ client = c.journaling

section Connected

variable {setup : ExporterSetup σ ρ} {Q : Client σ → Prop} {e : Exporter (σ × Journal) ρ}

theorem connected_create {client : Option (Client σ)} {now : Int} {s : σ} {source : ρ}
    (hclient : ∀ c, client = some c → Q c)
    (h : create setup.journaling (client.map (·.journaling)) now (s, []) source = .ok e) :
    Connected setup Q e := by
  obtain ⟨schedule, rfl⟩ := create_spec h
  refine ⟨rfl, fun noting hnoting => ?_⟩
  obtain ⟨c, hc, rfl⟩ := Option.map_eq_some_iff.mp hnoting
  exact ⟨c, hclient c hc, rfl⟩

theorem connect_journaling {t t' : σ × Journal} {reply : Except Fault (Client (σ × Journal))}
    (h : setup.journaling.connect t = (reply, t')) :
    reply = (setup.connect t.1).1.map (·.journaling) ∧ t'.2 = t.2 := by
  cases h
  exact ⟨rfl, rfl⟩

section Actions

variable (h : Connected setup Q e)

include h

theorem Connected.start (hQ : ∀ s c, (setup.connect s).1 = .ok c → Q c) :
    Connected setup Q e.start.1 ∧ e.start.1.backend.2 = e.backend.2 := by
  have hstarted := start_spec e
  generalize e.start.1 = after at hstarted ⊢
  cases hstarted with
  | kept scheduler => exact ⟨⟨h.setup_eq, h.client_eq⟩, rfl⟩
  | refused hnone hconnect =>
    rw [h.setup_eq] at hconnect
    exact ⟨⟨h.setup_eq, h.client_eq⟩, (connect_journaling hconnect).2⟩
  | @attached client backend scheduler hnone hconnect =>
    rw [h.setup_eq] at hconnect
    obtain ⟨hreply, hjournal⟩ := connect_journaling hconnect
    refine ⟨⟨h.setup_eq, fun noting hnoting => ?_⟩, hjournal⟩
    cases hreached : (setup.connect e.backend.1).1 with
    | error fault => rw [hreached] at hreply; cases hreply
    | ok c =>
      rw [hreached] at hreply
      exact ⟨c, hQ _ c hreached,
        (Option.some.inj hnoting).symm.trans (Except.ok.inj hreply)⟩

theorem Connected.stop :
    Connected setup Q e.stop.1 ∧ e.stop.1.backend.2 = e.backend.2 := by
  obtain ⟨backend, hstop, hbackend⟩ := stop_spec e
  rw [hstop]
  refine ⟨⟨h.setup_eq, nofun⟩, ?_⟩
  rcases hbackend with rfl | ⟨client, hclient, rfl⟩
  · rfl
  · obtain ⟨c, -, rfl⟩ := h.client_eq client hclient
    rfl

theorem Connected.publish :
    Connected setup Q e.publish.2.1 ∧
      e.publish.2.1.backend.2 =
        e.backend.2 ++ (e.client.map e.cycleOf).toList.flatMap (·.written) := by
  cases hclient : e.client with
  | none =>
    rw [publish_none hclient]
    exact ⟨h, (List.append_nil _).symm⟩
  | some client =>
    obtain ⟨c, -, rfl⟩ := h.client_eq client hclient
    obtain ⟨cache, lastResult, hpublish⟩ := publish_spec hclient
    refine ⟨by rw [hpublish]; exact ⟨h.setup_eq, h.client_eq⟩, ?_⟩
    simpa using (journal_publish hclient).1

/-- **Connections.** Every action keeps them noting, and only a cycle writes. -/
theorem Connected.apply (hQ : ∀ s c, (setup.connect s).1 = .ok c → Q c) (act : ω → ρ → ρ)
    (action : Action σ ω) :
    Connected setup Q (action.apply act e) ∧
      (action.apply act e).backend.2 =
        e.backend.2 ++ (action.cycle? e).toList.flatMap (·.written) := by
  cases action with
  | start =>
    obtain ⟨hconnected, hjournal⟩ := h.start hQ
    exact ⟨hconnected, hjournal.trans (List.append_nil _).symm⟩
  | stop =>
    obtain ⟨hconnected, hjournal⟩ := h.stop
    exact ⟨hconnected, hjournal.trans (List.append_nil _).symm⟩
  | publish => exact h.publish
  | advance millis seconds =>
    simp only [Action.apply, advance]
    cases Clock.advance e.now millis seconds with
    | error fault => exact ⟨h, (List.append_nil _).symm⟩
    | ok now => exact ⟨⟨h.setup_eq, h.client_eq⟩, (List.append_nil _).symm⟩
  | service change => exact ⟨⟨h.setup_eq, h.client_eq⟩, (List.append_nil _).symm⟩
  | workers change => exact ⟨⟨h.setup_eq, h.client_eq⟩, (List.append_nil _).symm⟩
  | meters op => exact ⟨⟨h.setup_eq, h.client_eq⟩, (List.append_nil _).symm⟩

/-- **What a run writes** is what its cycles write. -/
theorem journal_run (hQ : ∀ s c, (setup.connect s).1 = .ok c → Q c) (act : ω → ρ → ρ)
    (actions : List (Action σ ω)) :
    (runAll act actions e).backend.2 =
      e.backend.2 ++ (cycles act actions e).flatMap (·.written) := by
  induction actions generalizing e with
  | nil => exact (List.append_nil _).symm
  | cons action rest ih =>
    obtain ⟨hconnected, hjournal⟩ := h.apply hQ act action
    rw [cycles, List.flatMap_append, ← List.append_assoc, ← hjournal]
    exact ih hconnected

/-- What holds of every cycle through a noting connection holds of the cycles of a run. -/
theorem Connected.forall_cycles (hQ : ∀ s c, (setup.connect s).1 = .ok c → Q c)
    {P : Cycle → Prop}
    (hP : ∀ (e : Exporter (σ × Journal) ρ) (client : Client σ), Connected setup Q e →
      e.client = some client.journaling → P (e.cycleOf client.journaling))
    (act : ω → ρ → ρ) (actions : List (Action σ ω)) : ∀ c ∈ cycles act actions e, P c := by
  induction actions generalizing e with
  | nil => intro c hc; cases hc
  | cons action rest ih =>
    intro c hc
    rcases List.mem_append.mp hc with hc | hc
    · cases action with
      | publish =>
        cases hclient : e.client with
        | none => simp [Action.cycle?, hclient] at hc
        | some client =>
          obtain ⟨client, -, rfl⟩ := h.client_eq client hclient
          obtain rfl : c = e.cycleOf client.journaling := by
            simpa [Action.cycle?, hclient] using hc
          exact hP e client h hclient
      | _ => cases hc
    · exact ih (h.apply hQ act action).1 c hc

theorem Connected.config_eq : e.config = setup.config := by
  rw [config, h.setup_eq]
  rfl

end Actions

end Connected

end Exporter
end Telemetry

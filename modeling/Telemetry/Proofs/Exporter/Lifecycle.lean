import Telemetry.Proofs.Exporter.Runs
import Telemetry.Proofs.Schedule.Workers

/-!
The life of an exporter: connecting, scheduling, and the end of both.

Proved here:

* `start_of_idle`, `start_of_connected`, `start_of_refused`, `start_of_attached`: all that a
  start can come to;
* `Sustained.apply`: connection, cache and schedule go together whatever happens;
* `Sustained.start_of_refusal`: a connection that cannot be made again is not in use;
* `live_orderly`: hence nobody sees them apart in the life of an exporter.
-/

namespace Telemetry

variable {σ ρ : Type}

/-- A setup that connects a client that is given, at any time. -/
def ExporterSetup.preferring (given : Option (Client σ)) (setup : ExporterSetup σ ρ) :
    ExporterSetup σ ρ :=
  match given with
  | none => setup
  | some client => { setup with connect := fun s => (.ok client, s) }

namespace Exporter

/-! ## What an exporter goes through -/

/-- What an exporter goes through: it is used, the workers of its scheduler take their turns, and
the wall time, the service and the source around it go on by themselves. -/
inductive Happening (σ ρ : Type) where
  | start
  | stop
  | publish
  | worker (turn : Scheduler.Turn)
  | around (now : Int) (backend : σ) (source : ρ)

def Happening.apply : Happening σ ρ → Exporter σ ρ → Exporter σ ρ
  | .start, e => e.start.1
  | .stop, e => e.stop.1
  | .publish, e => e.publish.2.1
  | .worker turn, e => { e with scheduler := turn.apply e.scheduler }
  | .around now backend source, e => { e with now, backend, source }

/-- The exporter after happenings in turn. -/
def live (happenings : List (Happening σ ρ)) (e : Exporter σ ρ) : Exporter σ ρ :=
  happenings.foldl (fun e happening => happening.apply e) e

/-! ## Starts -/

/-- A start does nothing, or it finds an enabled exporter that does not run. -/
theorem idle_or_startable (e : Exporter σ ρ) :
    (e.config.enabled.truthy = false ∨ e.isRunning = true) ∨
      e.config.enabled.truthy = true ∧ e.isRunning = false := by
  cases e.config.enabled.truthy <;> cases e.isRunning <;> simp

section Start

variable {e : Exporter σ ρ}

theorem start_of_idle (h : e.config.enabled.truthy = false ∨ e.isRunning = true) :
    e.start.1 = e := by
  rw [start]
  split
  · rfl
  · next henabled =>
    rcases h with hdisabled | hrunning
    · rw [hdisabled] at henabled
      exact absurd rfl henabled
    · rw [if_pos hrunning]

variable (henabled : e.config.enabled.truthy = true) (hstopped : e.isRunning = false)

include henabled hstopped

theorem start_of_connected (h : e.client.isSome = true) :
    e.start.1 = { e with scheduler := e.scheduler.start } := by
  simp only [start, henabled, hstopped, Bool.not_true, Bool.false_eq_true, if_false]
  split
  · rfl
  · next hnone =>
    rw [hnone] at h
    cases h

theorem start_of_refused (hnone : e.client = none) {fault : Fault} {backend : σ}
    (h : e.setup.connect e.backend = (.error fault, backend)) : e.start.1 = { e with backend } := by
  simp only [start, henabled, hstopped, hnone, h]
  rfl

theorem start_of_attached (hnone : e.client = none) {client : Client σ} {backend : σ}
    (h : e.setup.connect e.backend = (.ok client, backend)) :
    e.start.1 =
      { e with
        scheduler := e.scheduler.start, client := some client, cache := some .empty
        previousEnd := e.now, backend } := by
  simp only [start, henabled, hstopped, hnone, h]
  rfl

omit hstopped in
theorem isRunning_start {client : Client σ}
    (h : (e.setup.connect e.backend).1 = .ok client) : e.start.1.isRunning = true := by
  cases hrunning : e.isRunning with
  | true => rwa [start_of_idle (Or.inr hrunning)]
  | false =>
    cases hclient : e.client with
    | some given =>
      rw [start_of_connected henabled hrunning (by rw [hclient]; rfl)]
      exact Scheduler.isRunning_start _
    | none =>
      rw [start_of_attached henabled hrunning hclient (Prod.ext h rfl)]
      exact Scheduler.isRunning_start _

end Start

/-! ## What is sustained -/

theorem publish_cache (e : Exporter σ ρ) : e.publish.2.1.cache.isSome = e.cache.isSome := by
  rw [publish]
  split
  · rfl
  · dsimp only
    split
    · rfl
    · next client _ _ snapshots _ =>
      have hbuilt := (e.builder client).buildAll_cache snapshots e.buildState
      simp only [transmit]
      split
      · exact hbuilt
      · exact hbuilt

/-- Connection, cache and schedule go together.

- `cached`: there is a cache exactly if there is a connection.
- `tidy`: the workers are in order.
- `running`: cycles are scheduled only of an enabled exporter that is connected.
- `reconnects`: a connection without a schedule is one that can be made again at any time. -/
structure Sustained (e : Exporter σ ρ) : Prop where
  cached : e.cache.isSome = e.client.isSome
  tidy : e.scheduler.Tidy
  running : e.isRunning = true → e.config.enabled.truthy = true ∧ e.client.isSome = true
  reconnects : e.client.isSome = true →
    e.isRunning = true ∨ ∀ s, ∃ client, (e.setup.connect s).1 = .ok client

theorem sustained_create {given : Option (Client σ)} {setup : ExporterSetup σ ρ} {now : Int}
    {backend : σ} {source : ρ} {e : Exporter σ ρ}
    (h : create (setup.preferring given) given now backend source = .ok e) : e.Sustained := by
  obtain ⟨schedule, rfl⟩ := create_spec h
  refine ⟨Option.isSome_map, Scheduler.tidy_idle, nofun, fun hgiven => Or.inr fun s => ?_⟩
  obtain ⟨client, rfl⟩ := Option.isSome_iff_exists.mp hgiven
  exact ⟨client, rfl⟩

section Sustained

variable {e : Exporter σ ρ} (h : e.Sustained)

include h

theorem Sustained.start : e.start.1.Sustained := by
  rcases e.idle_or_startable with hidle | ⟨henabled, hstopped⟩
  · rwa [start_of_idle hidle]
  have hrunning := Scheduler.isRunning_start e.scheduler
  cases hclient : e.client with
  | some client =>
    have hsome : e.client.isSome = true := by rw [hclient]; rfl
    rw [start_of_connected henabled hstopped hsome]
    exact ⟨h.cached, h.tidy.start, fun _ => ⟨henabled, hsome⟩, fun _ => Or.inl hrunning⟩
  | none =>
    rcases hconnect : e.setup.connect e.backend with ⟨fault | client, backend⟩
    · rw [start_of_refused henabled hstopped hclient hconnect]
      exact ⟨h.cached, h.tidy, h.running, h.reconnects⟩
    · rw [start_of_attached henabled hstopped hclient hconnect]
      exact ⟨rfl, h.tidy.start, fun _ => ⟨henabled, rfl⟩, fun _ => Or.inl hrunning⟩

theorem Sustained.stop : e.stop.1.Sustained := by
  obtain ⟨backend, hstop, -⟩ := stop_spec e
  rw [hstop]
  exact ⟨rfl, h.tidy.stop, nofun, nofun⟩

theorem Sustained.publish : e.publish.2.1.Sustained := by
  cases hclient : e.client with
  | none => rwa [publish_none hclient]
  | some client =>
    have hcache := publish_cache e
    obtain ⟨cache, lastResult, hpublish⟩ := publish_spec hclient
    rw [hpublish] at hcache ⊢
    exact ⟨hcache.trans h.cached, h.tidy, h.running, h.reconnects⟩

theorem Sustained.isRunning_worker (turn : Scheduler.Turn) :
    (turn.apply e.scheduler).isRunning = e.isRunning := by
  have hturned := turn.apply_spec e.scheduler
  rw [Bool.eq_iff_iff, isRunning, h.tidy.isRunning_iff, (h.tidy.turned hturned).isRunning_iff,
    hturned.shared.2.1]

/-- **Nothing that happens parts them.** -/
theorem Sustained.apply (happening : Happening σ ρ) : (happening.apply e).Sustained := by
  cases happening with
  | start => exact h.start
  | stop => exact h.stop
  | publish => exact h.publish
  | worker turn =>
    have hsame := h.isRunning_worker turn
    exact ⟨h.cached, h.tidy.turned (turn.apply_spec _),
      fun hrunning => h.running (hsame ▸ hrunning),
      fun hclient => (h.reconnects hclient).imp_left hsame.trans⟩
  | around => exact ⟨h.cached, h.tidy, h.running, h.reconnects⟩

theorem Sustained.live (happenings : List (Happening σ ρ)) : (live happenings e).Sustained := by
  induction happenings generalizing e with
  | nil => exact h
  | cons happening rest ih => exact ih (h.apply happening)

/-- A connection that cannot be made now is not in use, unless cycles are scheduled. -/
theorem Sustained.start_of_refusal {fault : Fault}
    (hconnect : (e.setup.connect e.backend).1 = .error fault) :
    ∃ backend, e.start.1 = { e with backend } := by
  rcases e.idle_or_startable with hidle | ⟨henabled, hstopped⟩
  · exact ⟨e.backend, start_of_idle hidle⟩
  by_cases hnone : e.client = none
  · exact ⟨_, start_of_refused henabled hstopped hnone (Prod.ext hconnect rfl)⟩
  rcases h.reconnects (Option.isSome_iff_ne_none.mpr hnone) with hrunning | hreconnects
  · rw [hstopped] at hrunning
    cases hrunning
  · obtain ⟨client, hok⟩ := hreconnects e.backend
    rw [hconnect] at hok
    cases hok

end Sustained

/-! ## The life of an exporter -/

/-- What is seen of connection, cache and schedule.

- `connected_iff`: there is a connection exactly if there is a cache.
- `running`: an exporter that runs is enabled and connected.
- `stopped`: after a stop it neither runs nor is connected.
- `started`: an enabled exporter that can connect runs after a start.
- `start_idle`: a start of a disabled or a running exporter does nothing.
- `start_refused`: nor does a start whose connection is refused, other than to the service.
- `publish_unconnected`: without a connection a cycle does nothing but say so, whatever the
  snapshots would be. -/
structure Orderly (e : Exporter σ ρ) : Prop where
  connected_iff : e.client.isSome = true ↔ e.cache.isSome = true
  running : e.isRunning = true → e.config.enabled.truthy = true ∧ e.client.isSome = true
  stopped : e.stop.1.isRunning = false ∧ e.stop.1.client = none ∧ e.stop.1.cache = none
  started : e.config.enabled.truthy = true →
    (∃ client, (e.setup.connect e.backend).1 = .ok client) → e.start.1.isRunning = true
  start_idle : e.config.enabled.truthy = false ∨ e.isRunning = true → e.start.1 = e
  start_refused : (∃ fault, (e.setup.connect e.backend).1 = .error fault) →
    ∃ backend, e.start.1 = { e with backend }
  publish_unconnected : e.client = none → ∀ source : SnapshotSource ρ,
    ({ e with setup := { e.setup with source } } : Exporter σ ρ).publish =
      (.ok none, { e with setup := { e.setup with source } }, [.noClient])

theorem Sustained.orderly {e : Exporter σ ρ} (h : e.Sustained) : e.Orderly where
  connected_iff := by rw [h.cached]
  running := h.running
  stopped := by
    obtain ⟨backend, hstop, -⟩ := stop_spec e
    rw [hstop]
    exact ⟨rfl, rfl, rfl⟩
  started henabled hconnect := isRunning_start henabled hconnect.choose_spec
  start_idle := start_of_idle
  start_refused hconnect := h.start_of_refusal hconnect.choose_spec
  publish_unconnected hnone source := by rw [Exporter.publish, hnone]

/-- **The life of an exporter is orderly**, with or without a client given to it, whatever
happens to it and in whatever order. -/
theorem live_orderly {given : Option (Client σ)} {setup : ExporterSetup σ ρ} {now : Int}
    {backend : σ} {source : ρ} {e : Exporter σ ρ}
    (h : create (setup.preferring given) given now backend source = .ok e)
    (happenings : List (Happening σ ρ)) : (live happenings e).Orderly :=
  ((sustained_create h).live happenings).orderly

/-- A service that lets nobody in again who left, and meters that never report anything. -/
def onceSetup : ExporterSetup MemoryBackend Unit where
  config :=
    { projectId := .text "p", stepSeconds := .int 60, timeoutSeconds := .int 30 }
  connect s := (if s.closed then .error (.raised "closed") else .ok MemoryBackend.client, s)
  source s := (.ok [], s)

/-- A cycle too early, a cycle between start and stop, a start that is refused, and two that
are not. -/
def onceRun : List (Happening MemoryBackend Unit) :=
  [.publish, .start, .worker (.wake 0), .around 15 {} (), .publish, .stop, .start,
    .around 30 {} (), .start, .start]

theorem live_orderly_once :
    ∃ e, create (onceSetup.preferring none) none 10 {} () = .ok e ∧
      (∀ n, (live (onceRun.take n) e).Orderly) ∧
      (List.range 11).map (fun n =>
          let reached := live (onceRun.take n) e
          (reached.isRunning, reached.client.isSome, reached.cache.isSome, reached.previousEnd)) =
        [(false, false, false, 10), (false, false, false, 10), (true, true, true, 10),
          (true, true, true, 10), (true, true, true, 10), (true, true, true, 15),
          (false, false, false, 15), (false, false, false, 15), (false, false, false, 15),
          (true, true, true, 30), (true, true, true, 30)] := by
  have hcreate : create (onceSetup.preferring none) none 10 {} () = .ok _ := rfl
  exact ⟨_, hcreate, fun n => live_orderly hcreate (onceRun.take n), rfl⟩

end Exporter
end Telemetry

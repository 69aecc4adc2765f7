import Telemetry.Proofs.Backend.Agreement

/-!
Export without cumulative series, over whole runs of builds through one cache.

Proved here:

* `kind_of_mem_agenda`: every series that is looked up asks for a gauge;
* `ensure_gauges`: a lookup for a gauge attempts no other creation, and what is known after it is
  a gauge or was listed;
* `Grows.trans`: builds one after another ask for gauges as each of them does;
* `runBuilds_gauges`: so nothing but gauges is ever asked for, and a record that is no gauge has
  the kind under which the service lists its type.
-/

namespace Telemetry

variable {σ : Type}

namespace DescriptorCache

/-! ## Where a known kind comes from -/

/-- A listing gave a kind for a type: that of the last entry for it, among those that could be
taken over. -/
def ListedAs (calls : List ServiceCall) (key : Value.Key) (kind : MetricKind) : Prop :=
  ∃ listing, .listing (.ok listing) ∈ calls ∧
    lastListed? key (listing.takeWhile (·.1.key?.isSome)) = some kind

theorem ListedAs.mono {calls later : List ServiceCall} (hsub : calls ⊆ later) {key : Value.Key}
    {kind : MetricKind} (h : ListedAs calls key kind) : ListedAs later key kind := by
  obtain ⟨listing, hmem, hlast⟩ := h
  exact ⟨listing, hsub hmem, hlast⟩

/-- A cache and the calls made for it.

- `attempts`: every creation that is attempted asks for a gauge.
- `known`: every known kind is a gauge or was listed for its type. -/
structure AsksGauges (cache : DescriptorCache) (calls : List ServiceCall) : Prop where
  attempts : ∀ d ∈ calls.filterMap (·.attempt?), d.kind = .gauge
  known : ∀ key kind, cache.verified.get? key = some kind →
    kind = .gauge ∨ ListedAs calls key kind

theorem asksGauges_empty : AsksGauges empty [] := ⟨nofun, nofun⟩

section AsksGauges

variable {cache : DescriptorCache} {calls : List ServiceCall} (h : AsksGauges cache calls)

include h

theorem AsksGauges.append {more : List ServiceCall}
    (hmore : ∀ d ∈ more.filterMap (·.attempt?), d.kind = .gauge) :
    AsksGauges cache (calls ++ more) where
  attempts := by
    intro d hd
    rw [List.filterMap_append, List.mem_append] at hd
    exact hd.elim (h.attempts d) (hmore d)
  known := fun key kind hkey =>
    (h.known key kind hkey).imp_right (ListedAs.mono (List.subset_append_left ..))

theorem AsksGauges.populated (b : Bool) : AsksGauges { cache with populated := b } calls :=
  ⟨h.attempts, h.known⟩

theorem AsksGauges.learn {listing : List (Value × MetricKind)} {learned : DescriptorCache}
    {outcome : Except Fault Unit} (hlearn : cache.learn listing = (outcome, learned))
    (hcall : .listing (.ok listing) ∈ calls) : AsksGauges learned calls where
  attempts := h.attempts
  known := by
    intro key kind hkey
    rw [get?_learn hlearn key, Option.or_eq_some_iff] at hkey
    rcases hkey with hlisted | ⟨-, hknown⟩
    · exact Or.inr ⟨listing, hcall, hlisted⟩
    · exact h.known key kind hknown

theorem AsksGauges.insert_gauge (type : String) :
    AsksGauges { cache with verified := cache.verified.insert (.text type) .gauge } calls where
  attempts := h.attempts
  known := by
    intro key kind hkey
    dsimp only at hkey
    rw [OrderedMap.get?_insert] at hkey
    split at hkey
    · exact Or.inl (Option.some.inj hkey).symm
    · exact h.known key kind hkey

variable (client : Client σ) (scope : DescriptorScope) (s : σ)

theorem AsksGauges.populate :
    let step := populate client.noting scope cache (s, calls)
    AsksGauges step.cache step.backend.2 ∧ calls ⊆ step.backend.2 := by
  dsimp only
  rw [DescriptorCache.populate]
  split
  · exact ⟨h, List.Subset.refl _⟩
  · cases hlist : client.list scope.project scope.filter s with
    | mk outcome s' =>
      have hnoted : client.noting.list scope.project scope.filter (s, calls) =
          (outcome, s', calls ++ [.listing outcome]) := by
        simp [Client.noting, hlist]
      have hcalls : AsksGauges cache (calls ++ [.listing outcome]) :=
        h.append (by simp [ServiceCall.attempt?])
      have hsub : calls ⊆ calls ++ [.listing outcome] := List.subset_append_left ..
      rw [hnoted]
      cases outcome with
      | error fault => exact ⟨hcalls.populated true, hsub⟩
      | ok listing =>
        dsimp only
        split
        · next hlearn => exact ⟨hcalls.learn hlearn (by simp), hsub⟩
        · next hlearn => exact ⟨(hcalls.learn hlearn (by simp)).populated true, hsub⟩

variable {d : MetricDescriptor} (hd : d.kind = .gauge)

include hd

theorem AsksGauges.settling {after : DescriptorCache} {kind : MetricKind}
    {made : List ServiceCall} (hsettling : Settling cache d kind after made) :
    AsksGauges after (calls ++ made) ∧
      (kind = .gauge ∨ ListedAs (calls ++ made) (.text d.type) kind) := by
  cases hsettling with
  | hit hget =>
    rw [List.append_nil]
    exact ⟨h, h.known _ _ hget⟩
  | refused => exact ⟨h.append (by simpa [ServiceCall.attempt?] using hd), Or.inl hd⟩
  | created =>
    rw [hd]
    exact ⟨(h.append (by simpa [ServiceCall.attempt?] using hd)).insert_gauge d.type, Or.inl rfl⟩

/-- **A lookup for a gauge** attempts to create nothing else, and returns a gauge or the kind
under which the type is listed. -/
theorem ensure_gauges :
    let step := ensure client.noting scope d cache (s, calls)
    AsksGauges step.cache step.backend.2 ∧ calls ⊆ step.backend.2 ∧
      ∀ kind, step.outcome = .ok kind →
        kind = .gauge ∨ ListedAs step.backend.2 (.text d.type) kind := by
  obtain ⟨hfilled, hsub⟩ := h.populate client scope s
  rw [ensure, CacheStep.andThen]
  generalize DescriptorCache.populate client.noting scope cache (s, calls) = filling at *
  obtain ⟨outcome, filled, ⟨s', looked⟩, notices⟩ := filling
  cases outcome with
  | error fault =>
    refine ⟨hfilled, hsub, fun kind hkind => ?_⟩
    cases hkind
  | ok _ =>
    obtain ⟨kind, after, s'', notices', made, hsettling, -, hlook⟩ :=
      lookUp_spec client scope d filled s' looked
    obtain ⟨hafter, hkind⟩ := hfilled.settling hd hsettling
    simp only [hlook]
    refine ⟨hafter, List.subset_append_of_subset_left _ hsub, ?_⟩
    rintro _ ⟨⟩
    exact hkind

end AsksGauges

end DescriptorCache

namespace SeriesBuilder

open DescriptorCache (AsksGauges ListedAs)

/-! ## Records without cumulative export -/

/-- A record is a gauge without a start, or it has the kind under which its type is listed. -/
def GaugeOrListed (calls : List ServiceCall) (r : TimeSeries) : Prop :=
  r.kind = .gauge ∧ r.point.interval.start = none ∨ ListedAs calls (.text r.metricType) r.kind

theorem GaugeOrListed.mono {calls later : List ServiceCall} (hsub : calls ⊆ later)
    {r : TimeSeries} (h : GaugeOrListed calls r) : GaugeOrListed later r :=
  h.imp_right (ListedAs.mono hsub)

/-- There is a cache, and nothing but gauges was asked for through it. -/
def AsksGaugesState (st : BuildState (σ × List ServiceCall)) : Prop :=
  ∃ cache, st.cache = some cache ∧ AsksGauges cache st.backend.2

/-- What building comes to: the calls that were made before and further ones, and records. -/
structure Grows (st : BuildState (σ × List ServiceCall)) (rs : List TimeSeries)
    (after : BuildState (σ × List ServiceCall)) : Prop where
  asks : AsksGaugesState after
  calls : st.backend.2 ⊆ after.backend.2
  records : ∀ r ∈ rs, GaugeOrListed after.backend.2 r

section Grows

variable {st mid after : BuildState (σ × List ServiceCall)} {rs later : List TimeSeries}

theorem Grows.refl (h : AsksGaugesState st) : Grows st [] st :=
  ⟨h, List.Subset.refl _, by simp⟩

theorem Grows.trans (h : Grows st rs mid) (h' : Grows mid later after) :
    Grows st (rs ++ later) after where
  asks := h'.asks
  calls := List.Subset.trans h.calls h'.calls
  records := by
    intro r hr
    rcases List.mem_append.mp hr with hr | hr
    · exact (h.records r hr).mono h'.calls
    · exact h'.records r hr

theorem Grows.drop (h : Grows st rs after) : Grows st [] after := ⟨h.asks, h.calls, by simp⟩

end Grows

section Builder

variable {b : SeriesBuilder (σ × List ServiceCall)} {client : Client σ}
  (hclient : b.client = client.noting) {st : BuildState (σ × List ServiceCall)}
  (h : AsksGaugesState st)

/-- **Lookups without cumulative export** ask for gauges. -/
theorem kind_of_mem_agenda (hoff : b.config.cumulativeEnabled.truthy = false)
    (snapshot : Snapshot) :
    ∀ planned ∈ (b.agenda snapshot).series, planned.descriptor.kind = .gauge := by
  intro planned hmem
  obtain ⟨table, name, entry, -, -, -, hplanned⟩ := b.exists_entry_of_mem_agenda hmem
  obtain ⟨typed, -, rfl⟩ := Option.map_eq_some_iff.mp hplanned
  simp [requestedKind, hoff]

include hclient h

theorem record_grows {series : PlannedSeries} (hgauge : series.descriptor.kind = .gauge) :
    Grows st (b.record series st).1.toOption.toList (b.record series st).2 := by
  obtain ⟨cache, hcache, hasks⟩ := h
  obtain ⟨hafter, hsub, hkind⟩ :=
    DescriptorCache.ensure_gauges hasks client (scope b.config) st.backend.1 hgauge
  rw [record, ensure, hcache, hclient]
  dsimp only
  refine ⟨⟨_, rfl, hafter⟩, hsub, ?_⟩
  intro r hr
  generalize DescriptorCache.ensure client.noting (scope b.config) series.descriptor cache
    st.backend = found at *
  cases hfound : found.outcome with
  | error fault =>
    rw [hfound] at hr
    cases hr
  | ok kind =>
    rw [hfound] at hr
    obtain rfl := List.mem_singleton.mp hr
    rcases hkind kind hfound with rfl | hlisted
    · exact Or.inl ⟨rfl, rfl⟩
    · exact Or.inr hlisted

theorem records_grows {series : List PlannedSeries}
    (hgauges : ∀ planned ∈ series, planned.descriptor.kind = .gauge) :
    Grows st ((b.records series st).1.toOption.getD []) (b.records series st).2 := by
  induction series generalizing st with
  | nil => exact .refl h
  | cons first rest ih =>
    rw [List.forall_mem_cons] at hgauges
    have hfirst := record_grows hclient h hgauges.1
    rw [records]
    split
    · next heq =>
      rw [heq] at hfirst
      exact hfirst.drop
    · next built after heq =>
      rw [heq] at hfirst
      have hrest := hfirst.trans (ih hfirst.asks hgauges.2)
      dsimp only
      cases hlater : (b.records rest after).1 with
      | error fault => exact hrest.drop
      | ok later =>
        rw [hlater] at hrest
        exact hrest

theorem build_grows (hoff : b.config.cumulativeEnabled.truthy = false) (snapshot : Snapshot) :
    Grows st ((b.build snapshot st).1.toOption.getD []) (b.build snapshot st).2 := by
  have hgrows := records_grows hclient h (kind_of_mem_agenda hoff snapshot)
  rw [build_eq, carryOut]
  cases hmade : (b.records (b.agenda snapshot).series st).1 with
  | error fault => exact hgrows.drop
  | ok rs =>
    rw [hmade] at hgrows
    cases (b.agenda snapshot).fault with
    | none => exact hgrows
    | some fault => exact hgrows.drop

end Builder

/-! ## Runs of builds -/

/-- A snapshot to build, with the window and the names of its cycle. -/
structure BuildTask where
  window : BatchWindow
  naming : NamingConvention
  snapshot : Snapshot

/-- The records of builds one after another, of those that do not fail. -/
def runBuilds (client : Client σ) (config : ExportConfig) :
    List BuildTask → BuildState σ → List TimeSeries × BuildState σ
  | [], st => ([], st)
  | task :: rest, st =>
    let built := SeriesBuilder.build ⟨config, task.window, task.naming, client⟩ task.snapshot st
    let later := runBuilds client config rest built.2
    (built.1.toOption.getD [] ++ later.1, later.2)

theorem runBuilds_grows (client : Client σ) {config : ExportConfig}
    (hoff : config.cumulativeEnabled.truthy = false) (tasks : List BuildTask)
    {st : BuildState (σ × List ServiceCall)} (h : AsksGaugesState st) :
    Grows st (runBuilds client.noting config tasks st).1
      (runBuilds client.noting config tasks st).2 := by
  induction tasks generalizing st with
  | nil => exact .refl h
  | cons task rest ih =>
    have hbuilt := build_grows (b := ⟨config, task.window, task.naming, client.noting⟩) rfl h hoff
      task.snapshot
    exact hbuilt.trans (ih hbuilt.asks)

/-- **Runs without cumulative export.** Whatever a service answers to a cache that was empty at
first, only gauges are ever asked for, every known kind is a gauge or was listed for its type, and
so is the kind of every record, where the gauges have no start. -/
theorem runBuilds_gauges (client : Client σ) {config : ExportConfig}
    (hoff : config.cumulativeEnabled.truthy = false) (tasks : List BuildTask) (s : σ) :
    let run := runBuilds client.noting config tasks ⟨some .empty, (s, []), []⟩
    ∃ cache, run.2.cache = some cache ∧ AsksGauges cache run.2.backend.2 ∧
      ∀ r ∈ run.1, GaugeOrListed run.2.backend.2 r := by
  have hstart : AsksGaugesState (⟨some .empty, (s, []), []⟩ : BuildState (σ × List ServiceCall)) :=
    ⟨_, rfl, DescriptorCache.asksGauges_empty⟩
  have hgrows := runBuilds_grows client hoff tasks hstart
  obtain ⟨cache, hcache, hasks⟩ := hgrows.asks
  exact ⟨cache, hcache, hasks, hgrows.records⟩

def gaugesConfig : ExportConfig :=
  { metricTypePrefix := .text "t/", cumulativeEnabled := .bool false }

/-- A service that has jobs as a cumulative series and refuses its first creation, which is its
second call. -/
def jobsAccumulated : Client SwitchedMemory × SwitchedMemory :=
  (SwitchedMemory.client fun call => { creations := call = 1 },
    ⟨{ existing := .ofList [("t/jobs", .cumulative)] }, 0⟩)

def counting (name : String) (window : BatchWindow) : BuildTask :=
  ⟨window, .identity, ⟨⟨name, [], none, .counter⟩, .counter .zero⟩⟩

/-- A counter whose creation is refused at first, and one that the service has. -/
def countingTasks : List BuildTask :=
  [counting "runs" ⟨1, 2⟩, counting "jobs" ⟨1, 2⟩, counting "runs" ⟨3, 4⟩]

theorem runBuilds_gauges_jobs :
    let run := runBuilds jobsAccumulated.1.noting gaugesConfig countingTasks
      ⟨some .empty, (jobsAccumulated.2, []), []⟩
    gaugesConfig.cumulativeEnabled.truthy = false ∧
      run.1.map (fun r => (r.metricType, r.kind, r.point.interval.start)) =
        [("t/runs", .gauge, none), ("t/jobs", .cumulative, some 1), ("t/runs", .gauge, none)] ∧
      run.2.backend.2.map (·.isListing) = [true, false, false] ∧
      ∃ cache, run.2.cache = some cache ∧ AsksGauges cache run.2.backend.2 ∧
        ∀ r ∈ run.1, GaugeOrListed run.2.backend.2 r :=
  ⟨rfl, rfl, rfl, runBuilds_gauges jobsAccumulated.1 rfl countingTasks jobsAccumulated.2⟩

end SeriesBuilder
end Telemetry

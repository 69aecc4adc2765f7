import Telemetry.Proofs.Backend.CacheRuns
import Telemetry.Proofs.Series.Building

/-!
The descriptor cache beside a service in memory that refuses calls now and then, and the
kinds of the records that are built through the cache.

Proved here:

* `ensure_consistent`: a lookup keeps every known kind one that the service holds;
* `emission_grounded`: the kind of a record is held by the service at its lookup, unless a
  creation was refused in that lookup;
* `records_eq`: what a builder makes of planned series is one lookup and one record for each;
* `reachable_agrees`: cache and service agree in every state of a run of lookups, builds and
  clears, and so do the records built there.
-/

namespace Telemetry

variable {σ : Type}

/-! ## A service whose refusals are switched -/

/-- What a service in memory refuses. -/
structure Refusals where
  writes : Bool := false
  creations : Bool := false
  listings : Bool := false

/-- A client whose service changes on its own before every call. -/
def Client.after (client : Client σ) (change : σ → σ) : Client σ where
  write project records s := client.write project records (change s)
  create project d s := client.create project d (change s)
  list project filter s := client.list project filter (change s)
  close s := client.close (change s)

/-- A service in memory, and the number of calls it was asked so far. -/
structure SwitchedMemory where
  memory : MemoryBackend
  calls : Nat := 0

namespace SwitchedMemory

def put (memory : MemoryBackend) (s : SwitchedMemory) : SwitchedMemory := { s with memory }

/-- Switches the refusals to those for the next call. -/
def switch (refusals : Nat → Refusals) (s : SwitchedMemory) : SwitchedMemory where
  memory :=
    { s.memory with
      refusesWrites := (refusals s.calls).writes
      refusesCreations := (refusals s.calls).creations
      refusesListings := (refusals s.calls).listings }
  calls := s.calls + 1

/-- The client of a service that refuses at each call, by its number, what is given. -/
def client (refusals : Nat → Refusals) : Client SwitchedMemory :=
  (MemoryBackend.client.within memory put).after (switch refusals)

/-- A listing is that of the existing descriptors, and changes none. -/
theorem list_spec (refusals : Nat → Refusals) (project filter : String) (s : SwitchedMemory) :
    ∃ outcome s', (client refusals).list project filter s = (outcome, s') ∧
      s'.memory.existing = s.memory.existing ∧ s'.memory.descriptors = s.memory.descriptors ∧
      ∀ listing, outcome = .ok listing →
        listing = s.memory.existing.entries.map fun e => (.text e.1, e.2) := by
  refine ⟨_, _, rfl, ?_⟩
  simp only [switch, put,
    MemoryBackend.client, MemoryBackend.unlessOut, MemoryBackend.list]
  split
  · exact ⟨rfl, rfl, fun _ h => by cases h⟩
  · split
    · exact ⟨rfl, rfl, fun _ h => by cases h⟩
    · exact ⟨rfl, rfl, fun _ h => (Except.ok.inj h).symm⟩

/-- A creation that succeeds adds its descriptor, and one that fails changes none. -/
theorem create_spec (refusals : Nat → Refusals) (project : String) (d : MetricDescriptor)
    (s : SwitchedMemory) :
    ∃ outcome s', (client refusals).create project d s = (outcome, s') ∧
      s'.memory.existing = s.memory.existing ∧
      s'.memory.descriptors =
        match outcome with
        | .ok _ => s.memory.descriptors.insert d.type d
        | .error _ => s.memory.descriptors := by
  refine ⟨_, _, rfl, ?_⟩
  simp only [switch, put,
    MemoryBackend.client, MemoryBackend.unlessOut, MemoryBackend.create]
  split
  · exact ⟨rfl, rfl⟩
  · split
    · exact ⟨rfl, rfl⟩
    · exact ⟨rfl, rfl⟩

theorem listsKeys (refusals : Nat → Refusals) : (client refusals).ListsKeys := by
  intro project filter s listing s' h e he
  obtain ⟨outcome, s'', hlist, -, -, hlisting⟩ := list_spec refusals project filter s
  rw [hlist] at h
  rw [hlisting listing (congrArg Prod.fst h)] at he
  obtain ⟨entry, -, rfl⟩ := List.mem_map.mp he
  rfl

end SwitchedMemory

/-- The service has a type under a kind: among the descriptors that it lists, or among those
that it accepted. -/
def MemoryBackend.Holds (s : MemoryBackend) (type : String) (kind : MetricKind) : Prop :=
  s.existing.get? type = some kind ∨ (s.descriptors.get? type).map (·.kind) = some kind

namespace DescriptorCache

/-! ## Lookups -/

/-- Every known type is a text that the service holds under the known kind. -/
def AgreesWith (cache : DescriptorCache) (s : MemoryBackend) : Prop :=
  ∀ key kind, cache.verified.get? key = some kind → ∃ type, key = .text type ∧ s.Holds type kind

theorem agreesWith_empty (s : MemoryBackend) : empty.AgreesWith s := nofun

/-- A cache that agrees with a service, which lists what it listed at first. -/
structure Consistent (existing : OrderedMap String MetricKind) (cache : DescriptorCache)
    (s : SwitchedMemory) : Prop where
  agrees : cache.AgreesWith s.memory
  existing_eq : s.memory.existing = existing

section Consistent

variable {existing : OrderedMap String MetricKind} {cache : DescriptorCache}
  {s : SwitchedMemory} (h : Consistent existing cache s)
  (refusals : Nat → Refusals) (scope : DescriptorScope) (d : MetricDescriptor)

include h

theorem Consistent.clear : Consistent existing cache.clear s :=
  ⟨agreesWith_empty s.memory, h.existing_eq⟩

/-- A cache stays consistent as long as the service keeps its descriptors. -/
theorem Consistent.of_kept {s' : SwitchedMemory}
    (hexisting : s'.memory.existing = s.memory.existing)
    (hdescriptors : s'.memory.descriptors = s.memory.descriptors) :
    Consistent existing cache s' := by
  refine ⟨fun key kind hkey => ?_, hexisting.trans h.existing_eq⟩
  obtain ⟨type, htype, hholds⟩ := h.agrees key kind hkey
  exact ⟨type, htype, by rw [MemoryBackend.Holds, hexisting, hdescriptors]; exact hholds⟩

theorem Consistent.populated (b : Bool) :
    Consistent existing { cache with populated := b } s := ⟨h.agrees, h.existing_eq⟩

theorem Consistent.learn {learned : DescriptorCache} {outcome : Except Fault Unit}
    (hlearn : cache.learn (s.memory.existing.entries.map fun e => (.text e.1, e.2)) =
      (outcome, learned)) : Consistent existing learned s := by
  refine ⟨fun key kind hkey => ?_, h.existing_eq⟩
  rcases learn_origin hlearn hkey with hknown | ⟨e, he, hlisted, hkind⟩
  · exact h.agrees key kind hknown
  · obtain ⟨entry, hentry, rfl⟩ := List.mem_map.mp he
    have hget := (s.memory.existing.get?_eq_some_iff entry.1 entry.2).mpr hentry
    exact ⟨entry.1, (Option.some.inj hlisted).symm, Or.inl (hkind ▸ hget)⟩

theorem Consistent.populate :
    let step := populate (SwitchedMemory.client refusals) scope cache s
    Consistent existing step.cache step.backend := by
  obtain ⟨outcome, s', hlist, hexisting, hdescriptors, hlisting⟩ :=
    SwitchedMemory.list_spec refusals scope.project scope.filter s
  have hs' : Consistent existing cache s' := h.of_kept hexisting hdescriptors
  dsimp only
  rw [DescriptorCache.populate]
  split
  · exact h
  · rw [hlist]
    cases outcome with
    | error fault => exact hs'.populated true
    | ok listing =>
      cases hlearn : cache.learn listing with
      | mk learning learned =>
        have hlearned : Consistent existing learned s' := by
          rw [hlisting listing rfl, ← hexisting] at hlearn
          exact hs'.learn hlearn
        cases learning with
        | error fault => simpa [hlearn] using hlearned
        | ok _ => simpa [hlearn] using hlearned.populated true

/-- A type that is created under a kind is known and held under it; the other known types are
held as before. -/
theorem Consistent.created (hmissing : cache.get? d.type = none) {s' : SwitchedMemory}
    (hexisting : s'.memory.existing = s.memory.existing)
    (hdescriptors : s'.memory.descriptors = s.memory.descriptors.insert d.type d) :
    Consistent existing (cache.settle d.type d.kind).2 s' := by
  rw [settle_missing hmissing]
  refine ⟨fun key kind hkey => ?_, hexisting.trans h.existing_eq⟩
  dsimp only at hkey
  rw [OrderedMap.get?_insert] at hkey
  split at hkey
  · next heq =>
    refine ⟨d.type, heq, Or.inr ?_⟩
    rw [hdescriptors, OrderedMap.get?_insert, if_pos rfl]
    exact hkey
  · next hne =>
    obtain ⟨type, rfl, hholds⟩ := h.agrees key kind hkey
    have htype : type ≠ d.type := fun heq => hne (by rw [heq])
    refine ⟨type, rfl, ?_⟩
    rw [MemoryBackend.Holds, hexisting, hdescriptors, OrderedMap.get?_insert, if_neg htype]
    exact hholds

theorem Consistent.lookUp :
    let step := lookUp (create (SwitchedMemory.client refusals) scope d) d.type cache s
    Consistent existing step.cache step.backend := by
  dsimp only
  rw [DescriptorCache.lookUp]
  cases hget : cache.get? d.type with
  | some kind => exact h
  | none =>
    obtain ⟨outcome, s', hcreate, hexisting, hdescriptors⟩ :=
      SwitchedMemory.create_spec refusals scope.project d s
    dsimp only
    rw [create, hcreate]
    cases outcome with
    | error fault => exact h.of_kept hexisting hdescriptors
    | ok _ => exact h.created d hget hexisting hdescriptors

/-- **A lookup keeps cache and service in agreement.** -/
theorem ensure_consistent :
    let step := ensure (SwitchedMemory.client refusals) scope d cache s
    Consistent existing step.cache step.backend := by
  have hfilled := h.populate refusals scope
  dsimp only at hfilled ⊢
  rw [ensure, CacheStep.andThen]
  split
  · exact hfilled
  · exact hfilled.lookUp refusals scope d

end Consistent

/-- A kind that is settled is known then, unless the creation was refused. -/
theorem Settling.known_or_refused {cache after : DescriptorCache} {d : MetricDescriptor}
    {kind : MetricKind} {calls : List ServiceCall} (h : Settling cache d kind after calls) :
    after.get? d.type = some kind ∨ ∃ fault, .creation d (.error fault) ∈ calls := by
  cases h with
  | hit hget => exact Or.inl hget
  | refused _ fault => exact Or.inr ⟨fault, List.mem_singleton_self _⟩
  | created => exact Or.inl (by simp [get?, OrderedMap.get?_insert])

/-- A kind that is settled by a refused creation is the one asked for. -/
theorem Settling.kind_of_refused {cache after : DescriptorCache} {d e : MetricDescriptor}
    {kind : MetricKind} {calls : List ServiceCall} (h : Settling cache d kind after calls)
    {fault : Fault} (hrefused : .creation e (.error fault) ∈ calls) : kind = d.kind := by
  cases h with
  | hit => cases hrefused
  | refused => rfl
  | created => rfl

/-- A creation was refused in a lookup. -/
def Lookup.Rejected (l : Lookup) : Prop :=
  ∃ d fault, .creation d (.error fault) ∈ l.calls

section Lawful

variable {l : Lookup} (h : l.Lawful) {kind : MetricKind} (hkind : l.outcome = .ok kind)

include h hkind

theorem Lookup.Lawful.known_of_not_rejected (hnot : ¬ l.Rejected) :
    l.after.get? l.descriptor.type = some kind := by
  obtain ⟨-, hsettling, hcalls, houtcome⟩ := h
  obtain rfl := Except.ok.inj (houtcome.symm.trans hkind)
  rcases hsettling.known_or_refused with hknown | ⟨fault, hrefused⟩
  · exact hknown
  · exact absurd ⟨_, fault, hcalls ▸ List.mem_append_right _ hrefused⟩ hnot

theorem Lookup.Lawful.kind_of_rejected (hrejected : l.Rejected) : kind = l.descriptor.kind := by
  obtain ⟨hfilling, hsettling, hcalls, houtcome⟩ := h
  obtain rfl := Except.ok.inj (houtcome.symm.trans hkind)
  obtain ⟨d, fault, hcall⟩ := hrejected
  rw [hcalls, List.mem_append] at hcall
  exact hsettling.kind_of_refused (hcall.resolve_left hfilling.not_creation)

end Lawful

end DescriptorCache

namespace SeriesBuilder

open DescriptorCache (Lookup lookupAt AgreesWith Consistent)

/-! ## Records that are built through a cache -/

/-- A record, the lookup that its kind came from, and the service after that lookup. -/
structure Emission (σ : Type) where
  record : TimeSeries
  lookup : Lookup
  backend : σ

/-- What is built of planned series in turn: a lookup and a record for each. -/
def emissions (b : SeriesBuilder σ) : List PlannedSeries → DescriptorCache → σ →
    List (Emission σ)
  | [], _, _ => []
  | series :: rest, cache, s =>
    let step := DescriptorCache.ensure b.client (scope b.config) series.descriptor cache s
    match step.outcome with
    | .error _ => []
    | .ok kind =>
      { record := b.finish kind series
        lookup := lookupAt b.client (scope b.config) series.descriptor cache s
        backend := step.backend } :: emissions b rest step.cache step.backend

section Emissions

variable (b : SeriesBuilder σ) (hkeys : b.client.ListsKeys)

include hkeys

/-- The records of planned series are those of the lookups, and none fails. -/
theorem records_eq (series : List PlannedSeries) (cache : DescriptorCache) (s : σ)
    (notices : List Notice) :
    (b.records series ⟨some cache, s, notices⟩).1 =
      .ok ((b.emissions series cache s).map (·.record)) := by
  induction series generalizing cache s notices with
  | nil => rfl
  | cons first rest ih =>
    obtain ⟨kind, hkind⟩ := DescriptorCache.exists_ensure_outcome (scope b.config)
      first.descriptor cache hkeys s
    simp only [records, record, ensure, emissions, hkind, Except.map]
    rw [ih]
    rfl

theorem lookups_emissions (series : List PlannedSeries) (cache : DescriptorCache) (s : σ) :
    (b.emissions series cache s).map (·.lookup.descriptor) = series.map (·.descriptor) := by
  induction series generalizing cache s with
  | nil => rfl
  | cons first rest ih =>
    obtain ⟨kind, hkind⟩ := DescriptorCache.exists_ensure_outcome (scope b.config)
      first.descriptor cache hkeys s
    simp only [emissions, hkind, List.map_cons, ih]
    rfl

end Emissions

/-- The kind of a record is the service's.

- `agrees`: cache and service agree after the lookup.
- `held`: the service holds the record's type under its kind then, unless a creation was
  refused in the lookup.
- `requested`: in that case the kind is the one asked for. -/
structure Emission.Grounded (e : Emission SwitchedMemory) : Prop where
  agrees : e.lookup.after.AgreesWith e.backend.memory
  held : ¬ e.lookup.Rejected → e.backend.memory.Holds e.record.metricType e.record.kind
  requested : e.lookup.Rejected → e.record.kind = e.lookup.descriptor.kind

section Grounded

variable {existing : OrderedMap String MetricKind} {refusals : Nat → Refusals}
  {b : SeriesBuilder SwitchedMemory} (hclient : b.client = SwitchedMemory.client refusals)

include hclient

theorem emission_grounded {cache : DescriptorCache} {s : SwitchedMemory}
    (h : Consistent existing cache s) (series : PlannedSeries) {kind : MetricKind}
    (hkind : (DescriptorCache.ensure b.client (scope b.config) series.descriptor cache
      s).outcome = .ok kind) :
    Emission.Grounded
      ⟨b.finish kind series, lookupAt b.client (scope b.config) series.descriptor cache s,
        (DescriptorCache.ensure b.client (scope b.config) series.descriptor cache s).backend⟩ := by
  have hlawful : (lookupAt b.client (scope b.config) series.descriptor cache s).Lawful :=
    DescriptorCache.lawful_lookupAt (hclient ▸ SwitchedMemory.listsKeys refusals) ..
  have hafter : Consistent existing _ _ :=
    DescriptorCache.ensure_consistent h refusals (scope b.config) series.descriptor
  rw [← hclient] at hafter
  refine ⟨hafter.agrees, fun hnot => ?_, fun hrejected => ?_⟩
  · have hknown := hlawful.known_of_not_rejected hkind hnot
    obtain ⟨type, htype, hholds⟩ := hafter.agrees _ _ hknown
    cases htype
    exact hholds
  · exact hlawful.kind_of_rejected hkind hrejected

theorem emissions_grounded (series : List PlannedSeries) {cache : DescriptorCache}
    {s : SwitchedMemory} (h : Consistent existing cache s) :
    ∀ e ∈ b.emissions series cache s, e.Grounded := by
  induction series generalizing cache s with
  | nil => simp [emissions]
  | cons first rest ih =>
    have hkeys : b.client.ListsKeys := hclient ▸ SwitchedMemory.listsKeys refusals
    obtain ⟨kind, hkind⟩ := DescriptorCache.exists_ensure_outcome (scope b.config)
      first.descriptor cache hkeys s
    have hafter := DescriptorCache.ensure_consistent h refusals (scope b.config)
      first.descriptor
    rw [← hclient] at hafter
    simp only [emissions, hkind, List.forall_mem_cons]
    exact ⟨emission_grounded hclient h first hkind, ih hafter⟩

end Grounded

/-! ## Runs of lookups, builds and clears -/

/-- What is done with a cache. -/
inductive Use where
  | ensure (scope : DescriptorScope) (d : MetricDescriptor)
  | build (config : ExportConfig) (window : BatchWindow) (naming : NamingConvention)
    (snapshot : Snapshot)
  | clear

/-- A use of a cache through a client. -/
def Use.apply (client : Client σ) : Use → BuildState σ → BuildState σ
  | .ensure scope d, st =>
    match st.cache with
    | none => st
    | some cache =>
      let step := cache.ensure client scope d st.backend
      ⟨some step.cache, step.backend, st.notices ++ step.notices⟩
  | .build config window naming snapshot, st =>
    (SeriesBuilder.build ⟨config, window, naming, client⟩ snapshot st).2
  | .clear, st => { st with cache := st.cache.map (·.clear) }

/-- The state after uses of an empty cache, one after another. -/
def useAll (client : Client σ) (uses : List Use) (s : σ) : BuildState σ :=
  uses.foldl (fun st use => use.apply client st) ⟨some .empty, s, []⟩

/-- There is a cache, and it is consistent. -/
def ConsistentState (existing : OrderedMap String MetricKind)
    (st : BuildState SwitchedMemory) : Prop :=
  ∃ cache, st.cache = some cache ∧ Consistent existing cache st.backend

section Runs

variable {existing : OrderedMap String MetricKind} {refusals : Nat → Refusals}
  {st : BuildState SwitchedMemory}

theorem record_consistent {b : SeriesBuilder SwitchedMemory}
    (hclient : b.client = SwitchedMemory.client refusals) (h : ConsistentState existing st)
    (series : PlannedSeries) : ConsistentState existing (b.record series st).2 := by
  obtain ⟨cache, hcache, hst⟩ := h
  rw [record, ensure, hcache, hclient]
  exact ⟨_, rfl, DescriptorCache.ensure_consistent hst refusals _ _⟩

theorem Use.apply_consistent (use : Use) (h : ConsistentState existing st) :
    ConsistentState existing (use.apply (SwitchedMemory.client refusals) st) := by
  cases use with
  | ensure scope d =>
    obtain ⟨cache, hcache, hst⟩ := h
    rw [apply, hcache]
    exact ⟨_, rfl, DescriptorCache.ensure_consistent hst refusals scope d⟩
  | build config window naming snapshot =>
    exact build_maintains (P := ConsistentState existing)
      ⟨config, window, naming, SwitchedMemory.client refusals⟩
      (fun series _ hst => record_consistent rfl hst series) snapshot h
  | clear =>
    obtain ⟨cache, hcache, hst⟩ := h
    exact ⟨cache.clear, by rw [apply, hcache]; rfl, hst.clear⟩

theorem useAll_consistent (uses : List Use) (s : SwitchedMemory) :
    ConsistentState s.memory.existing (useAll (SwitchedMemory.client refusals) uses s) := by
  have hstart : ConsistentState s.memory.existing ⟨some .empty, s, []⟩ :=
    ⟨_, rfl, DescriptorCache.agreesWith_empty _, rfl⟩
  rw [useAll]
  generalize (⟨some .empty, s, []⟩ : BuildState SwitchedMemory) = st at hstart ⊢
  induction uses generalizing st with
  | nil => exact hstart
  | cons use rest ih => exact ih _ (use.apply_consistent hstart)

end Runs

/-- A build through a cache.

- `records`: no lookup fails, and the records are those of the lookups, if the snapshot has a plan.
- `descriptors`: there is one lookup for each planned series, in order.
- `grounded`: the kind of every record is the service's. -/
structure BuildAgrees (b : SeriesBuilder SwitchedMemory) (snapshot : Snapshot)
    (cache : DescriptorCache) (st : BuildState SwitchedMemory) : Prop where
  records : (b.build snapshot st).1 = (b.plan snapshot).map fun series =>
    (b.emissions series cache st.backend).map (·.record)
  descriptors : ∀ series, (b.emissions series cache st.backend).map (·.lookup.descriptor) =
    series.map (·.descriptor)
  grounded : ∀ series, ∀ e ∈ b.emissions series cache st.backend, e.Grounded

theorem buildAgrees {existing : OrderedMap String MetricKind} {refusals : Nat → Refusals}
    {b : SeriesBuilder SwitchedMemory} (hclient : b.client = SwitchedMemory.client refusals)
    {cache : DescriptorCache} {st : BuildState SwitchedMemory} (hcache : st.cache = some cache)
    (h : Consistent existing cache st.backend) (snapshot : Snapshot) :
    BuildAgrees b snapshot cache st := by
  have hkeys : b.client.ListsKeys := hclient ▸ SwitchedMemory.listsKeys refusals
  refine ⟨?_, fun series => lookups_emissions b hkeys series cache _,
    fun series => emissions_grounded hclient series h⟩
  obtain ⟨_, s, notices⟩ := st
  cases hcache
  rw [build_eq, carryOut, plan, records_eq b hkeys]
  cases (b.agenda snapshot).fault <;> rfl

/-- **Cache and service agree.** Whatever the service refuses at each call, after any run of
lookups, builds and clears every known type is held by the service under the known kind, and
what is built next carries the kinds that the service holds. -/
theorem reachable_agrees (refusals : Nat → Refusals) (uses : List Use) (s : SwitchedMemory) :
    let client := SwitchedMemory.client refusals
    let st := useAll client uses s
    ∃ cache, st.cache = some cache ∧ cache.AgreesWith st.backend.memory ∧
      st.backend.memory.existing = s.memory.existing ∧
      ∀ config window naming snapshot,
        BuildAgrees ⟨config, window, naming, client⟩ snapshot cache st := by
  have hconsistent : ConsistentState s.memory.existing
      (useAll (SwitchedMemory.client refusals) uses s) := useAll_consistent uses s
  obtain ⟨cache, hcache, hst⟩ := hconsistent
  exact ⟨cache, hcache, hst.agrees, hst.existing_eq,
    fun _ _ _ snapshot => buildAgrees rfl hcache hst snapshot⟩

/-- The first call, which is a listing, and the fourth, which is a creation, are refused. -/
def refusedAtTimes (call : Nat) : Refusals := { listings := call = 0, creations := call = 3 }

/-- A service that has one type as a gauge. -/
def jobsKnown : SwitchedMemory := ⟨{ existing := .ofList [("t/jobs", .gauge)] }, 0⟩

/-- The known type is created under another kind, since the listing is refused. After a clear
it is listed, and the creation of another type is refused. -/
def relistedUses : List Use :=
  [.ensure ⟨"projects/p", "t/"⟩ (DescriptorCache.cumulativeOf "t/jobs"), .clear,
    .ensure ⟨"projects/p", "t/"⟩ (DescriptorCache.cumulativeOf "t/other")]

def jobsBuilder : SeriesBuilder SwitchedMemory :=
  ⟨{ metricTypePrefix := .text "t/" }, ⟨1, 2⟩, .identity, SwitchedMemory.client refusedAtTimes⟩

def jobsCount : Snapshot := ⟨⟨"jobs", [], none, .counter⟩, .counter .zero⟩

/-- The counter is built as the gauge that the service lists. -/
theorem reachable_agrees_relisted :
    let st := useAll jobsBuilder.client relistedUses jobsKnown
    (st.backend.memory.descriptors.get? "t/jobs").map (·.kind) = some .cumulative ∧
    ∃ cache, cache.AgreesWith st.backend.memory ∧ BuildAgrees jobsBuilder jobsCount cache st ∧
      (jobsBuilder.plan jobsCount).map (·.map (·.descriptor.kind)) = .ok [.cumulative] ∧
      (jobsBuilder.build jobsCount st).1.map (·.map (·.kind)) = .ok [.gauge] := by
  obtain ⟨cache, -, hagrees, -, hbuild⟩ := reachable_agrees refusedAtTimes relistedUses jobsKnown
  exact ⟨rfl, cache, hagrees, hbuild _ _ _ _, rfl, rfl⟩

end SeriesBuilder
end Telemetry

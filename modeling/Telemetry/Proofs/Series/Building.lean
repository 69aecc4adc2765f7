import Mathlib.Data.List.Forall2
import Telemetry.Backend.Memory
import Telemetry.Proofs.Backend.Lookup
import Telemetry.Proofs.Series.Plan

/-!
What a builder makes of snapshots, and what it leaves alone.

Proved here:

* `plan_spec`: a plan is the table of the reading under the name of the meter;
* `record_eq`: a record is its planned series, finished under the kind that is in effect;
* `build_finished`: the records of a snapshot are its planned series in their order, each
  finished under some kind;
* `buildAll_eq`, `blocks_sublist`: the records of many snapshots are the blocks of those that can
  be built, and these are some of the snapshots in their order;
* `built_or_failed`, `records_fault`: each of the others has a fault, and if it is that of a lookup,
  it says that a listed type is no key;
* `buildAll_maintains`: building maintains whatever each record maintains;
* `buildAll_keeps`: building only lists and creates descriptors, so whatever those calls keep
  about the service is kept.
-/

namespace Telemetry

variable {σ : Type}

/-- Listing and creating descriptors keep a property of the service. -/
structure Client.Keeps (client : Client σ) (P : σ → Prop) : Prop where
  list : ∀ project filter s, P s → P (client.list project filter s).2
  create : ∀ project d s, P s → P (client.create project d s).2

namespace DescriptorCache

section Keeps

variable {client : Client σ} {P : σ → Prop} (hkeeps : client.Keeps P) (scope : DescriptorScope)
  (d : MetricDescriptor) (cache : DescriptorCache) {s : σ} (h : P s)

include hkeeps h

theorem populate_keeps : P (populate client scope cache s).backend := by
  have hlist := hkeeps.list scope.project scope.filter s h
  rw [populate]
  split
  · exact h
  · split
    · next heq => rwa [heq] at hlist
    · next heq =>
      rw [heq] at hlist
      split
      · exact hlist
      · exact hlist

theorem create_keeps : P (create client scope d cache s).backend := by
  have hcreate := hkeeps.create scope.project d s h
  rw [create]
  split
  · next heq => rwa [heq] at hcreate
  · next heq => rwa [heq] at hcreate

theorem ensure_keeps : P (ensure client scope d cache s).backend := by
  have hfilled := populate_keeps hkeeps scope cache h
  rw [ensure, CacheStep.andThen]
  split
  · exact hfilled
  · dsimp only
    rw [lookUp]
    split
    · exact hfilled
    · exact create_keeps hkeeps scope d _ hfilled

omit hkeeps h in
theorem exists_ensure_outcome (hkeys : client.ListsKeys) (s : σ) :
    ∃ kind, (ensure client scope d cache s).outcome = .ok kind := by
  obtain ⟨_, kind, _, _, _, _, _, _, houtcome, _⟩ := ensure_spec client scope d cache s hkeys
  exact ⟨kind, houtcome⟩

end Keeps

end DescriptorCache

/-- The histogram of a reading that has one, and whether it holds durations. -/
def Reading.histogram? : Reading → Option (Bool × Histogram)
  | .timer h => some (true, h)
  | .summary h => some (false, h)
  | _ => none

theorem SeriesTable.ofReading_histogram {reading : Reading} {timed : Bool} {h : Histogram}
    (hread : reading.histogram? = some (timed, h)) : ofReading reading = ofHistogram timed h := by
  cases reading <;> cases hread <;> rfl

/-- The table of a histogram: its distribution, its maximum, its count and its percentiles. -/
theorem SeriesTable.ofHistogram_spec {timed : Bool} {h : Histogram} {table : List SeriesEntry}
    (htable : ofHistogram timed h = .ok table) :
    ∃ d count, Distribution.ofHistogram h timed = .ok d ∧
      Binary64.ofIntWithin h.count = .ok count ∧
      table = ⟨none, .distribution d, .gauge, false⟩ :: number (some "max") timed h.max ::
        cumulative (some "count") count :: h.percentiles.map (percentile timed) := by
  obtain ⟨d, hd, hrest⟩ := Fault.exists_of_bind_eq_ok htable
  obtain ⟨count, hcount, htable⟩ := Fault.exists_of_bind_eq_ok hrest
  exact ⟨d, count, hd, hcount, (Except.ok.inj htable).symm⟩

namespace SeriesBuilder

variable (b : SeriesBuilder σ)

/-! ## Plans -/

/-- What is looked up of a table that nothing in it ends. An empty table needs no name. -/
theorem agendaOf_spec {id : MeterId} {table : List SeriesEntry}
    (h : (b.agendaOf id table).fault = none) :
    (∀ entry ∈ table, entry.oversized = false) ∧
      (table = [] ∧ (b.agendaOf id table).series = [] ∨ ∃ name, b.naming.name id = .ok name ∧
        (b.agendaOf id table).series = table.filterMap (b.planEntry id name)) := by
  induction table with
  | nil => exact ⟨nofun, Or.inl ⟨rfl, rfl⟩⟩
  | cons entry rest ih =>
    rw [agendaOf, planRow] at h ⊢
    cases hsize : entry.oversized with
    | true =>
      rw [hsize, if_pos rfl] at h
      cases h
    | false =>
      cases hname : b.naming.name id with
      | error fault =>
        rw [hsize, hname] at h
        cases h
      | ok name =>
        rw [hsize, hname] at h
        obtain ⟨hrest, hseries⟩ := ih h
        refine ⟨List.forall_mem_cons.mpr ⟨hsize, hrest⟩, Or.inr ⟨name, rfl, ?_⟩⟩
        have hlater : (b.agendaOf id rest).series = rest.filterMap (b.planEntry id name) := by
          rcases hseries with ⟨rfl, hnil⟩ | ⟨name', hname', hlater⟩
          · exact hnil
          · rwa [Except.ok.inj (hname.symm.trans hname')]
        show (b.planEntry id name entry).toList ++ (b.agendaOf id rest).series = _
        rw [hlater, List.filterMap_cons]
        cases b.planEntry id name entry <;> rfl

/-- A plan is the table of the reading under the name of the meter; an empty table needs no
name. -/
theorem plan_spec {snapshot : Snapshot} {series : List PlannedSeries}
    (h : b.plan snapshot = .ok series) :
    ∃ table, SeriesTable.ofReading snapshot.reading = .ok table ∧
      (∀ entry ∈ table, entry.oversized = false) ∧
      (table = [] ∧ series = [] ∨ ∃ name, b.naming.name snapshot.id = .ok name ∧
        series = table.filterMap (b.planEntry snapshot.id name)) := by
  rw [plan, agenda] at h
  cases htable : SeriesTable.ofReading snapshot.reading with
  | error fault =>
    rw [htable] at h
    cases h
  | ok table =>
    rw [htable] at h
    dsimp only at h
    split at h
    · cases h
    · next hfault =>
      cases h
      exact ⟨table, rfl, b.agendaOf_spec hfault⟩

/-- Every series that is looked up is an entry of the table. -/
theorem exists_entry_of_mem_agendaOf {id : MeterId} {table : List SeriesEntry}
    {planned : PlannedSeries} (hmem : planned ∈ (b.agendaOf id table).series) :
    ∃ name entry, b.naming.name id = .ok name ∧ entry ∈ table ∧
      b.planEntry id name entry = some planned := by
  induction table with
  | nil => cases hmem
  | cons entry rest ih =>
    rw [agendaOf] at hmem
    split at hmem
    · cases hmem
    · next row hrow =>
      rcases List.mem_append.mp hmem with hfirst | hlater
      · rw [planRow] at hrow
        split at hrow
        · cases hrow
        · obtain ⟨name, hname, rfl⟩ := Fault.exists_of_map_eq_ok hrow
          exact ⟨name, entry, hname, List.mem_cons_self .., Option.mem_toList.mp hfirst⟩
      · obtain ⟨name, other, hname, hother, hplanned⟩ := ih hlater
        exact ⟨name, other, hname, List.mem_cons_of_mem _ hother, hplanned⟩

theorem exists_entry_of_mem_agenda {snapshot : Snapshot} {planned : PlannedSeries}
    (hmem : planned ∈ (b.agenda snapshot).series) :
    ∃ table name entry, SeriesTable.ofReading snapshot.reading = .ok table ∧
      b.naming.name snapshot.id = .ok name ∧ entry ∈ table ∧
      b.planEntry snapshot.id name entry = some planned := by
  rw [agenda] at hmem
  split at hmem
  · cases hmem
  · next table htable => exact ⟨table, by simpa [htable] using b.exists_entry_of_mem_agendaOf hmem⟩

theorem agenda_of_plan {snapshot : Snapshot} {series : List PlannedSeries}
    (h : b.plan snapshot = .ok series) : b.agenda snapshot = ⟨series, none⟩ := by
  rw [plan] at h
  cases hagenda : b.agenda snapshot with
  | mk planned fault =>
    rw [hagenda] at h
    cases fault with
    | some fault => cases h
    | none =>
      cases h
      rfl

theorem exists_entry_of_mem_plan {snapshot : Snapshot} {series : List PlannedSeries}
    (h : b.plan snapshot = .ok series) {planned : PlannedSeries} (hmem : planned ∈ series) :
    ∃ table name entry, SeriesTable.ofReading snapshot.reading = .ok table ∧
      b.naming.name snapshot.id = .ok name ∧ entry ∈ table ∧
      b.planEntry snapshot.id name entry = some planned :=
  b.exists_entry_of_mem_agenda (by rwa [b.agenda_of_plan h])

/-! ## Records of a snapshot -/

/-- The kind that is in effect for a descriptor: what a lookup finds, and without a cache the kind
asked for. -/
def kindInEffect (d : MetricDescriptor) (st : BuildState σ) : Except Fault MetricKind :=
  match st.cache with
  | none => .ok d.kind
  | some cache => (cache.ensure b.client (scope b.config) d st.backend).outcome

theorem record_eq (series : PlannedSeries) (st : BuildState σ) :
    (b.record series st).1 =
      (b.kindInEffect series.descriptor st).map fun kind => b.finish kind series := by
  rw [record, ensure, kindInEffect]
  cases st.cache <;> rfl

/-- A record is a planned series that was finished under some kind. -/
def Finished (series : PlannedSeries) (r : TimeSeries) : Prop := ∃ kind, r = b.finish kind series

theorem record_finished {series : PlannedSeries} {st : BuildState σ} {r : TimeSeries}
    (h : (b.record series st).1 = .ok r) : b.Finished series r := by
  rw [b.record_eq] at h
  obtain ⟨kind, -, rfl⟩ := Fault.exists_of_map_eq_ok h
  exact ⟨kind, rfl⟩

theorem records_finished {series : List PlannedSeries} {st : BuildState σ}
    {rs : List TimeSeries} (h : (b.records series st).1 = .ok rs) :
    List.Forall₂ b.Finished series rs := by
  induction series generalizing st rs with
  | nil =>
    cases h
    exact .nil
  | cons first rest ih =>
    rw [records] at h
    split at h
    · cases h
    · next r after hrecord =>
      obtain ⟨later, hrest, rfl⟩ := Fault.exists_of_map_eq_ok h
      exact .cons (b.record_finished (congrArg Prod.fst hrecord)) (ih hrest)

theorem build_of_plan {snapshot : Snapshot} {series : List PlannedSeries}
    (h : b.plan snapshot = .ok series) (st : BuildState σ) :
    b.build snapshot st = b.records series st := by
  rw [build_eq, b.agenda_of_plan h, carryOut]
  cases b.records series st with
  | mk outcome after => cases outcome <;> rfl

/-- Building leaves what the lookups leave, also if it fails after them. -/
theorem build_after (snapshot : Snapshot) (st : BuildState σ) :
    (b.build snapshot st).2 = (b.records (b.agenda snapshot).series st).2 := by
  rw [build_eq, carryOut]

theorem exists_plan_of_build {snapshot : Snapshot} {st : BuildState σ} {rs : List TimeSeries}
    (h : (b.build snapshot st).1 = .ok rs) : ∃ series, b.plan snapshot = .ok series := by
  rw [build_eq, carryOut] at h
  rw [plan]
  obtain ⟨made, -, hfault⟩ := Fault.exists_of_bind_eq_ok h
  cases hnone : (b.agenda snapshot).fault with
  | none => exact ⟨_, rfl⟩
  | some fault =>
    rw [hnone] at hfault
    cases hfault

/-- The records of a snapshot are those of its plan, if it has one. -/
theorem build_toOption (snapshot : Snapshot) (st : BuildState σ) :
    (b.build snapshot st).1.toOption =
      (b.plan snapshot).toOption.bind fun series => (b.records series st).1.toOption := by
  cases hplan : b.plan snapshot with
  | ok series => rw [b.build_of_plan hplan]; rfl
  | error fault =>
    cases hbuild : (b.build snapshot st).1 with
    | error fault => rfl
    | ok rs =>
      obtain ⟨series, hok⟩ := b.exists_plan_of_build hbuild
      rw [hplan] at hok
      cases hok

/-- **Records of a snapshot**: one for each of its planned series. -/
theorem build_finished {snapshot : Snapshot} {st : BuildState σ} {rs : List TimeSeries}
    (h : (b.build snapshot st).1 = .ok rs) :
    ∃ series, b.plan snapshot = .ok series ∧ List.Forall₂ b.Finished series rs := by
  obtain ⟨series, hplan⟩ := b.exists_plan_of_build h
  rw [b.build_of_plan hplan] at h
  exact ⟨series, hplan, b.records_finished h⟩

/-! ## Records of many snapshots -/

/-- The snapshots that are built, each with its records. -/
def blocks : List Snapshot → BuildState σ → List (Snapshot × List TimeSeries)
  | [], _ => []
  | snapshot :: rest, st =>
    match b.build snapshot st with
    | (.error fault, st) =>
      blocks rest { st with notices := st.notices ++ [.seriesNotBuilt snapshot.id.name fault] }
    | (.ok built, st) => (snapshot, built) :: blocks rest st

theorem buildAll_eq (snapshots : List Snapshot) (st : BuildState σ) :
    (b.buildAll snapshots st).1 = (b.blocks snapshots st).flatMap (·.2) := by
  induction snapshots generalizing st with
  | nil => rfl
  | cons snapshot rest ih =>
    rw [buildAll, blocks]
    obtain ⟨outcome, after⟩ := b.build snapshot st
    cases outcome with
    | error fault => exact ih _
    | ok built => exact congrArg (built ++ ·) (ih after)

/-- No snapshot is built twice, and all are built in their order. -/
theorem blocks_sublist (snapshots : List Snapshot) (st : BuildState σ) :
    ((b.blocks snapshots st).map (·.1)).Sublist snapshots := by
  induction snapshots generalizing st with
  | nil => exact .slnil
  | cons snapshot rest ih =>
    rw [blocks]
    split
    · exact (ih _).cons _
    · exact (ih _).cons_cons _

theorem mem_of_mem_blocks {snapshots : List Snapshot} {st : BuildState σ}
    {block : Snapshot × List TimeSeries} (h : block ∈ b.blocks snapshots st) :
    block.1 ∈ snapshots :=
  (b.blocks_sublist snapshots st).subset (List.mem_map_of_mem h)

theorem blocks_finished {snapshots : List Snapshot} {st : BuildState σ} :
    ∀ block ∈ b.blocks snapshots st,
      ∃ series, b.plan block.1 = .ok series ∧ List.Forall₂ b.Finished series block.2 := by
  induction snapshots generalizing st with
  | nil => simp [blocks]
  | cons snapshot rest ih =>
    rw [blocks]
    split
    · exact ih
    · next hbuild =>
      rw [List.forall_mem_cons]
      exact ⟨b.build_finished (congrArg Prod.fst hbuild), ih⟩

/-- Every record of a snapshot is one of its planned series. -/
theorem exists_planned_of_mem {series : List PlannedSeries} {rs : List TimeSeries}
    (h : List.Forall₂ b.Finished series rs) {r : TimeSeries} (hr : r ∈ rs) :
    ∃ planned ∈ series, b.Finished planned r := by
  induction h with
  | nil => cases hr
  | cons hfirst _ ih =>
    rcases List.mem_cons.mp hr with rfl | hrest
    · exact ⟨_, List.mem_cons_self .., hfirst⟩
    · obtain ⟨planned, hmem, hfinished⟩ := ih hrest
      exact ⟨planned, List.mem_cons_of_mem _ hmem, hfinished⟩

/-- Every planned series of a snapshot is one of its records. -/
theorem exists_record_of_mem {series : List PlannedSeries} {rs : List TimeSeries}
    (h : List.Forall₂ b.Finished series rs) {planned : PlannedSeries} (hmem : planned ∈ series) :
    ∃ r ∈ rs, b.Finished planned r := by
  induction h with
  | nil => cases hmem
  | cons hfirst _ ih =>
    rcases List.mem_cons.mp hmem with rfl | hrest
    · exact ⟨_, List.mem_cons_self .., hfirst⟩
    · obtain ⟨r, hr, hfinished⟩ := ih hrest
      exact ⟨r, List.mem_cons_of_mem _ hr, hfinished⟩

theorem interval_of_mem_buildAll {snapshots : List Snapshot} {st : BuildState σ} {r : TimeSeries}
    (h : r ∈ (b.buildAll snapshots st).1) :
    r.point.interval = .ofWindow b.window r.kind := by
  rw [buildAll_eq, List.mem_flatMap] at h
  obtain ⟨block, hblock, hr⟩ := h
  obtain ⟨series, -, hfinished⟩ := b.blocks_finished block hblock
  obtain ⟨planned, -, kind, rfl⟩ := b.exists_planned_of_mem hfinished hr
  rfl

/-- The snapshots that cannot be built, each with its fault. -/
def failures : List Snapshot → BuildState σ → List (Snapshot × Fault)
  | [], _ => []
  | snapshot :: rest, st =>
    match b.build snapshot st with
    | (.error fault, st) =>
      (snapshot, fault) ::
        failures rest { st with notices := st.notices ++ [.seriesNotBuilt snapshot.id.name fault] }
    | (.ok _, st) => failures rest st

section Chosen

variable {p : Snapshot → Bool} {snapshots : List Snapshot}

theorem none_built (hnone : snapshots.filter p = []) (st : BuildState σ) :
    (b.blocks snapshots st).filter (p ·.1) = [] ∧
      (b.failures snapshots st).filter (p ·.1) = [] := by
  induction snapshots generalizing st with
  | nil => exact ⟨rfl, rfl⟩
  | cons snapshot rest ih =>
    rw [List.filter_eq_nil_iff, List.forall_mem_cons, ← List.filter_eq_nil_iff] at hnone
    rw [blocks, failures]
    split <;> simpa [hnone.1] using ih hnone.2 _

/-- Of the only snapshot that meets a condition, either the records or the fault are there. -/
theorem built_or_failed {s : Snapshot} (hone : snapshots.filter p = [s]) (st : BuildState σ) :
    ∃ before, (∃ rs, (b.build s before).1 = .ok rs ∧
        (b.blocks snapshots st).filter (p ·.1) = [(s, rs)] ∧
        (b.failures snapshots st).filter (p ·.1) = []) ∨
      ∃ fault, (b.build s before).1 = .error fault ∧
        (b.blocks snapshots st).filter (p ·.1) = [] ∧
        (b.failures snapshots st).filter (p ·.1) = [(s, fault)] := by
  induction snapshots generalizing st with
  | nil => cases hone
  | cons snapshot rest ih =>
    cases hp : p snapshot with
    | false =>
      rw [List.filter_cons_of_neg (by simp [hp])] at hone
      rw [blocks, failures]
      split <;> simpa [hp] using ih hone _
    | true =>
      rw [List.filter_cons_of_pos hp] at hone
      obtain ⟨rfl, hrest⟩ := List.cons.inj hone
      refine ⟨st, ?_⟩
      rw [blocks, failures]
      cases hbuild : b.build snapshot st with
      | mk outcome after =>
        cases outcome with
        | ok rs =>
          obtain ⟨hblocks, hfailures⟩ := b.none_built hrest after
          exact Or.inl ⟨rs, rfl, by simp [hp, hblocks], hfailures⟩
        | error fault =>
          obtain ⟨hblocks, hfailures⟩ := b.none_built hrest
            { after with notices := after.notices ++ [.seriesNotBuilt snapshot.id.name fault] }
          exact Or.inr ⟨fault, rfl, hblocks, by simp [hp, hfailures]⟩

end Chosen

theorem record_fault {series : PlannedSeries} {st st' : BuildState σ} {fault : Fault}
    (h : b.record series st = (.error fault, st')) :
    (∃ shape, fault = .notKey shape) ∧ ¬ b.client.ListsKeys := by
  rw [record, ensure] at h
  split at h
  · cases h
  · next cache _ =>
    cases hfound : (cache.ensure b.client (scope b.config) series.descriptor
        st.backend).outcome with
    | ok kind => simp [hfound, Except.map] at h
    | error fault' =>
      simp only [hfound, Except.map, Prod.mk.injEq, Except.error.injEq] at h
      exact h.1 ▸ DescriptorCache.ensure_fault hfound

theorem records_fault {series : List PlannedSeries} {st st' : BuildState σ} {fault : Fault}
    (h : b.records series st = (.error fault, st')) :
    (∃ shape, fault = .notKey shape) ∧ ¬ b.client.ListsKeys := by
  induction series generalizing st with
  | nil => cases h
  | cons first rest ih =>
    rw [records] at h
    split at h
    · next hrecord =>
      cases h
      exact b.record_fault hrecord
    · next after _ =>
      cases hrest : b.records rest after with
      | mk outcome last =>
        cases outcome with
        | ok later => simp [hrest, Except.map] at h
        | error fault' =>
          rw [hrest] at h
          cases h
          exact ih hrest

/-! ## What building maintains -/

section Maintains

variable {P : BuildState σ → Prop} (hrecord : ∀ series st, P st → P (b.record series st).2)

include hrecord

theorem records_maintains (series : List PlannedSeries) {st : BuildState σ} (h : P st) :
    P (b.records series st).2 := by
  induction series generalizing st with
  | nil => exact h
  | cons first rest ih =>
    have hfirst := hrecord first st h
    rw [records]
    split
    · next heq => rwa [heq] at hfirst
    · next heq =>
      rw [heq] at hfirst
      exact ih hfirst

theorem build_maintains (snapshot : Snapshot) {st : BuildState σ} (h : P st) :
    P (b.build snapshot st).2 := by
  rw [build_after]
  exact b.records_maintains hrecord _ h

theorem buildAll_maintains (hnotices : ∀ st notices, P st → P { st with notices })
    (snapshots : List Snapshot) {st : BuildState σ} (h : P st) :
    P (b.buildAll snapshots st).2 := by
  induction snapshots generalizing st with
  | nil => exact h
  | cons snapshot rest ih =>
    have hfirst := b.build_maintains hrecord snapshot h
    rw [buildAll]
    split
    · next heq =>
      rw [heq] at hfirst
      exact ih (hnotices _ _ hfirst)
    · next heq =>
      rw [heq] at hfirst
      exact ih hfirst

end Maintains

theorem record_cache (series : PlannedSeries) (st : BuildState σ) :
    (b.record series st).2.cache.isSome = st.cache.isSome := by
  rw [record, ensure]
  split
  · rfl
  · next hcache => rw [hcache]; rfl

theorem buildAll_cache (snapshots : List Snapshot) (st : BuildState σ) :
    (b.buildAll snapshots st).2.cache.isSome = st.cache.isSome :=
  b.buildAll_maintains (P := fun after => after.cache.isSome = st.cache.isSome)
    (fun series st' h => (b.record_cache series st').trans h) (fun _ _ h => h) snapshots rfl

/-! ## What building keeps -/

section Keeps

variable {P : σ → Prop} (hkeeps : b.client.Keeps P)

include hkeeps

theorem record_keeps (series : PlannedSeries) {st : BuildState σ} (h : P st.backend) :
    P (b.record series st).2.backend := by
  rw [record, ensure]
  split
  · exact h
  · exact DescriptorCache.ensure_keeps hkeeps _ _ _ h

theorem build_keeps (snapshot : Snapshot) {st : BuildState σ} (h : P st.backend) :
    P (b.build snapshot st).2.backend :=
  b.build_maintains (P := fun st => P st.backend)
    (fun series _ h => b.record_keeps hkeeps series h) snapshot h

theorem buildAll_keeps (snapshots : List Snapshot) {st : BuildState σ} (h : P st.backend) :
    P (b.buildAll snapshots st).2.backend :=
  b.buildAll_maintains (P := fun st => P st.backend)
    (fun series _ h => b.record_keeps hkeeps series h) (fun _ _ h => h) snapshots h

end Keeps

/-- A builder that keeps all names, with the service in memory. -/
def plainBuilder : SeriesBuilder MemoryBackend :=
  ⟨{ metricTypePrefix := .text "t/" }, ⟨1, 2⟩, .identity, MemoryBackend.client⟩

end SeriesBuilder
end Telemetry

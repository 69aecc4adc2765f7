import Telemetry.Proofs.Meter.Identity
import Telemetry.Proofs.Meter.RegistryRuns
import Telemetry.Proofs.Series.Building

/-!
Time series of different meters.

Proved here:

* `metricType_name`: without a slash in it, the name of a meter can be read off its metric types;
* `key_eq_of_sameSeries`: so the series of a record tells the name and tags of its meter;
* `buildAll_separates`: no two registered meters write the same time series.
-/

namespace Telemetry

variable {σ : Type}

/-- Two records are about the same time series: they have the same type and the same mapping of
labels. -/
def TimeSeries.SameSeries (r other : TimeSeries) : Prop :=
  r.metricType = other.metricType ∧ ∀ key, r.labels.get? key = other.labels.get? key

/-- The name of the meter has no slash, and its tags are in order: then its time series tell which
meter it is. -/
structure MeterId.Plain (id : MeterId) : Prop where
  name : '/' ∉ id.name.toList
  tags : ∃ tags, id.tags = sortTags tags

namespace SeriesBuilder

/-! ## Metric types -/

/-- After the name of the meter, a metric type ends or goes on with a slash. -/
theorem exists_rest_metricType (config : ExportConfig) (name : String) (suffix : Option String) :
    ∃ rest, (metricType config name suffix).toList =
        config.metricTypePrefix.render.toList ++ (name.toList ++ rest) ∧
      rest.takeWhile (· ≠ '/') = [] := by
  cases suffix with
  | none => exact ⟨[], by simp [metricType], rfl⟩
  | some s => exact ⟨'/' :: s.toList, by simp [metricType, String.toList_append], rfl⟩

theorem takeWhile_name {name : String} (hname : '/' ∉ name.toList) {rest : List Char}
    (hrest : rest.takeWhile (· ≠ '/') = []) :
    (name.toList ++ rest).takeWhile (· ≠ '/') = name.toList := by
  have hall : ∀ c ∈ name.toList, decide (c ≠ '/') = true := by
    intro c hc
    exact decide_eq_true fun h => hname (h ▸ hc)
  rw [List.takeWhile_append_of_pos hall, hrest, List.append_nil]

/-- **Metric types.** Whatever the suffixes are, names without a slash can be read off. -/
theorem metricType_name {config : ExportConfig} {name other : String}
    {suffix suffix' : Option String} (hname : '/' ∉ name.toList) (hother : '/' ∉ other.toList)
    (h : metricType config name suffix = metricType config other suffix') : name = other := by
  obtain ⟨rest, hlist, hrest⟩ := exists_rest_metricType config name suffix
  obtain ⟨rest', hlist', hrest'⟩ := exists_rest_metricType config other suffix'
  rw [h, hlist'] at hlist
  have hnames := congrArg (List.takeWhile (· ≠ '/')) (List.append_cancel_left hlist)
  rw [takeWhile_name hother hrest', takeWhile_name hname hrest] at hnames
  exact (String.toList_inj.mp hnames).symm

variable (b : SeriesBuilder σ)

/-! ## Records of one meter -/

section Identity

variable (hnaming : b.naming = .identity)

include hnaming

/-- The type and the labels of a record come from the name and the tags of its meter. -/
theorem series_of_mem_block {snapshots : List Snapshot} {st : BuildState σ}
    {block : Snapshot × List TimeSeries} (hblock : block ∈ b.blocks snapshots st) {r : TimeSeries}
    (hr : r ∈ block.2) :
    (∃ suffix, r.metricType = metricType b.config block.1.id.name suffix) ∧
      r.labels = .ofList block.1.id.tags := by
  obtain ⟨series, hplan, hfinished⟩ := b.blocks_finished block hblock
  obtain ⟨planned, hplanned, kind, rfl⟩ := b.exists_planned_of_mem hfinished hr
  obtain ⟨table, name, entry, -, hname, -, hentry⟩ := b.exists_entry_of_mem_plan hplan hplanned
  obtain ⟨typed, -, rfl⟩ := Option.map_eq_some_iff.mp hentry
  rw [hnaming] at hname
  cases hname
  refine ⟨⟨entry.suffix, rfl⟩, ?_⟩
  simp [finish, hnaming, NamingConvention.labels, NamingConvention.identity]

/-- **One series, one meter.** Records of the same series come from meters of the same name and
tags. -/
theorem key_eq_of_sameSeries {snapshots : List Snapshot} {st : BuildState σ}
    {block other : Snapshot × List TimeSeries} (hblock : block ∈ b.blocks snapshots st)
    (hother : other ∈ b.blocks snapshots st) (hplain : block.1.id.Plain)
    (hplain' : other.1.id.Plain) {r r' : TimeSeries} (hr : r ∈ block.2) (hr' : r' ∈ other.2)
    (hsame : r.SameSeries r') : Registry.key block.1.id = Registry.key other.1.id := by
  obtain ⟨⟨suffix, htype⟩, hlabels⟩ := b.series_of_mem_block hnaming hblock hr
  obtain ⟨⟨suffix', htype'⟩, hlabels'⟩ := b.series_of_mem_block hnaming hother hr'
  obtain ⟨hmetric, hlabel⟩ := hsame
  obtain ⟨tags, htags⟩ := hplain.tags
  obtain ⟨tags', htags'⟩ := hplain'.tags
  rw [htype, htype'] at hmetric
  refine Prod.ext (metricType_name hplain.name hplain'.name hmetric) ?_
  rw [Registry.key, Registry.key, htags, htags', MeterId.sortTags_eq_iff]
  intro k
  have hk := hlabel k
  rwa [hlabels, hlabels', htags, htags', MeterId.get?_ofList_sortTags,
    MeterId.get?_ofList_sortTags] at hk

theorem blocks_separate {snapshots : List Snapshot} (hplain : ∀ s ∈ snapshots, s.id.Plain)
    (hkeys : (snapshots.map (·.id)).Pairwise fun id other => Registry.key id ≠ Registry.key other)
    (st : BuildState σ) :
    (b.blocks snapshots st).Pairwise fun block other =>
      ∀ r ∈ block.2, ∀ r' ∈ other.2, ¬ r.SameSeries r' := by
  have hblocks : (b.blocks snapshots st).Pairwise fun block other =>
      Registry.key block.1.id ≠ Registry.key other.1.id := by
    have hsub := hkeys.sublist ((b.blocks_sublist snapshots st).map (·.id))
    rwa [List.map_map, List.pairwise_map] at hsub
  refine hblocks.imp_of_mem fun {block other} hblock hother hne r hr r' hr' hsame => hne ?_
  exact b.key_eq_of_sameSeries hnaming hblock hother (hplain _ (b.mem_of_mem_blocks hblock))
    (hplain _ (b.mem_of_mem_blocks hother)) hr hr' hsame

end Identity

/-! ## Records of a registry -/

theorem exists_tags_of_made (calls : List SessionCall) :
    ∀ m ∈ (MeterSession.applyAll calls {}).registry.made,
      ∃ tags, m.id.tags = MeterId.sortTags tags := by
  refine MeterSession.forall_made (P := fun m => ∃ tags, m.id.tags = MeterId.sortTags tags)
    (fun now m call h => ?_) (fun name tags description plan state _ _ => ⟨tags, rfl⟩)
    (fun m hm => ?_)
  · rwa [(MeterCall.follows now m call).1]
  · cases hm

/-- **Separation.** Whatever was done with a registry, the snapshots are those of its registered
meters, and if the names of these have no slash, then no record that is built of one is about the
same time series as a record that is built of another. -/
theorem buildAll_separates (hnaming : b.naming = .identity) (calls : List SessionCall)
    (hnames : ∀ m ∈ (MeterSession.applyAll calls {}).registry.meters, '/' ∉ m.id.name.toList)
    (st : BuildState σ) :
    ∃ snapshots after, (MeterSession.applyAll calls {}).snapshot = (.ok snapshots, after) ∧
      snapshots.map (·.id) =
        (MeterSession.applyAll calls {}).registry.meters.map (·.id) ∧
      ((b.blocks snapshots st).map (·.1)).Sublist snapshots ∧
      (b.buildAll snapshots st).1 = (b.blocks snapshots st).flatMap (·.2) ∧
      (b.blocks snapshots st).Pairwise fun block other =>
        ∀ r ∈ block.2, ∀ r' ∈ other.2, ¬ r.SameSeries r' := by
  have hkept := MeterSession.kept_run calls
  obtain ⟨after, hsnapshot⟩ := MeterSession.exists_snapshot hkept
  have hids := hkept.map_id_reports (MeterSession.applyAll calls {}).now
  refine ⟨_, after, hsnapshot, hids, b.blocks_sublist _ st,
    b.buildAll_eq _ st, b.blocks_separate hnaming (fun s hs => ?_) (hids ▸ hkept.pairwise_key) st⟩
  have hmem := List.mem_map_of_mem (f := (·.id)) hs
  rw [hids] at hmem
  obtain ⟨m, hm, hid⟩ := List.mem_map.mp hmem
  rw [← hid]
  exact ⟨hnames m hm, exists_tags_of_made calls m (Registry.mem_made_of_mem_meters hm)⟩

/-- Two counters of one name and a timer; the first counter makes room for a gauge. -/
def trackCalls : List SessionCall :=
  [.register "jobs" (.ofList [("queue", "a")]) none .counter,
    .register "jobs" (.ofList [("queue", "b")]) none .counter,
    .register "laps" .empty none (.timer [1] []),
    .remove 0,
    .register "jobs" (.ofList [("queue", "a")]) none (.gauge none)]

theorem buildAll_separates_tracks :
    (MeterSession.applyAll trackCalls {}).registry.meters.map (fun m => Registry.key m.id) =
      [("jobs", [("queue", "b")]), ("laps", []), ("jobs", [("queue", "a")])] ∧
    (∀ m ∈ (MeterSession.applyAll trackCalls {}).registry.meters, '/' ∉ m.id.name.toList) ∧
    ∃ snapshots after,
      (MeterSession.applyAll trackCalls {}).snapshot = (.ok snapshots, after) ∧
      ((plainBuilder.buildAll snapshots ⟨some .empty, {}, []⟩).1.map fun r =>
          (r.metricType, r.labels.entries)) =
        [("t/jobs", [("queue", "b")]), ("t/laps", []), ("t/laps/max", []), ("t/laps/count", []),
          ("t/jobs", [("queue", "a")])] ∧
      (plainBuilder.blocks snapshots ⟨some .empty, {}, []⟩).Pairwise fun block other =>
        ∀ r ∈ block.2, ∀ r' ∈ other.2, ¬ r.SameSeries r' := by
  have hnames : ∀ m ∈ (MeterSession.applyAll trackCalls {}).registry.meters,
      '/' ∉ m.id.name.toList := by decide +kernel
  have hbuilt : ((MeterSession.applyAll trackCalls {}).snapshot.1.toOption.map fun snapshots =>
      (plainBuilder.buildAll snapshots ⟨some .empty, {}, []⟩).1.map fun r =>
        (r.metricType, r.labels.entries)) =
      some [("t/jobs", [("queue", "b")]), ("t/laps", []), ("t/laps/max", []), ("t/laps/count", []),
        ("t/jobs", [("queue", "a")])] := by decide +kernel
  obtain ⟨snapshots, after, hsnapshot, -, -, -, hseparate⟩ :=
    buildAll_separates plainBuilder rfl trackCalls hnames ⟨some .empty, {}, []⟩
  rw [hsnapshot] at hbuilt
  exact ⟨by decide +kernel, hnames, snapshots, after, hsnapshot, Option.some.inj hbuilt, hseparate⟩

end SeriesBuilder
end Telemetry

import Telemetry.Proofs.Backend.Steady

/-!
Building many snapshots before a service that answers every call in the same way.

Proved here:

* `records_steady`, `build_steady`: what is built of a snapshot is a function of what the cache
  knows, and so is what it knows after that;
* `blocks_steady`: every snapshot gets the records that it gets alone;
* `buildAll_perm`: hence the order of the snapshots makes no difference to their records, and none
  to the kinds that are known at the end.
-/

namespace Telemetry

variable {σ : Type}

/-- What is known in a state of building, if there is a cache. -/
def BuildState.known (st : BuildState σ) : Option Knowledge := st.cache.map (·.knowledge)

namespace SeriesBuilder

section Given

variable (answers : ServiceAnswers)

/-- The kind that is in effect for a descriptor, given what is known. -/
def kindGiven? (known : Option Knowledge) (d : MetricDescriptor) : Option MetricKind :=
  match known with
  | none => some d.kind
  | some knowledge => knowledge.kindFor? answers d

/-- What is known after lookups. -/
def looked (known : Option Knowledge) (ds : List MetricDescriptor) : Option Knowledge :=
  known.map (ds.foldl (Knowledge.look answers))

variable (b : SeriesBuilder σ)

/-- The record of a series, given what is known. -/
def recordGiven? (known : Option Knowledge) (series : PlannedSeries) : Option TimeSeries :=
  (kindGiven? answers known series.descriptor).map fun kind => b.finish kind series

/-- The records of a snapshot, given what is known. -/
def blockGiven? (known : Option Knowledge) (snapshot : Snapshot) : Option (List TimeSeries) :=
  (b.plan snapshot).toOption.bind fun series => series.mapM (b.recordGiven? answers known)

end Given

variable (b : SeriesBuilder σ)

/-- The descriptors that a snapshot asks for, also if something in it fails after them. -/
def requested (snapshot : Snapshot) : List MetricDescriptor :=
  (b.agenda snapshot).series.map (·.descriptor)

theorem requested_of_plan {snapshot : Snapshot} {series : List PlannedSeries}
    (h : b.plan snapshot = .ok series) : b.requested snapshot = series.map (·.descriptor) := by
  rw [requested, b.agenda_of_plan h]

/-- No type is asked for under two kinds. -/
def OneKind (ds : List MetricDescriptor) : Prop := ∀ d ∈ ds, ∀ e ∈ ds, d.Agrees e

instance (ds : List MetricDescriptor) : Decidable (OneKind ds) :=
  inferInstanceAs (Decidable (∀ d ∈ ds, ∀ e ∈ ds, d.Agrees e))

theorem OneKind.mono {ds es : List MetricDescriptor} (h : OneKind ds) (hsub : es ⊆ ds) :
    OneKind es :=
  fun d hd e he => h d (hsub hd) e (hsub he)

section Looked

variable {answers : ServiceAnswers} {ds : List MetricDescriptor} (known : Option Knowledge)

theorem looked_nil : looked answers known [] = known := by cases known <;> rfl

theorem looked_append (es : List MetricDescriptor) :
    looked answers known (ds ++ es) = looked answers (looked answers known ds) es := by
  cases known <;> simp [looked]

theorem kindGiven?_looked {e : MetricDescriptor} (h : ∀ d ∈ ds, d.Agrees e) :
    kindGiven? answers (looked answers known ds) e = kindGiven? answers known e := by
  cases known with
  | none => rfl
  | some knowledge => exact Knowledge.kindFor?_foldl_look h knowledge

/-- A lookup that finds no kind is as good as those after it. -/
theorem looked_of_none {d : MetricDescriptor} (h : kindGiven? answers known d = none)
    (es : List MetricDescriptor) : looked answers known (d :: es) = looked answers known [d] := by
  cases known with
  | none => cases h
  | some knowledge => exact congrArg some (Knowledge.foldl_look_of_none h es)

theorem mapM_recordGiven?_looked {series : List PlannedSeries}
    (h : ∀ s ∈ series, ∀ d ∈ ds, d.Agrees s.descriptor) :
    series.mapM (b.recordGiven? answers (looked answers known ds)) =
      series.mapM (b.recordGiven? answers known) := by
  induction series with
  | nil => rfl
  | cons first rest ih =>
    rw [List.forall_mem_cons] at h
    rw [List.mapM_cons, List.mapM_cons, ih h.2, recordGiven?, kindGiven?_looked known h.1,
      recordGiven?]

/-- Lookups have no effect on what is built of a snapshot that agrees with them. -/
theorem blockGiven?_looked {snapshot : Snapshot}
    (h : ∀ d ∈ ds, ∀ e ∈ b.requested snapshot, d.Agrees e) :
    b.blockGiven? answers (looked answers known ds) snapshot =
      b.blockGiven? answers known snapshot := by
  rw [blockGiven?, blockGiven?]
  cases hplan : b.plan snapshot with
  | error fault => rfl
  | ok series =>
    rw [b.requested_of_plan hplan] at h
    exact b.mapM_recordGiven?_looked known fun s hs d hd => h d hd _ (List.mem_map_of_mem hs)

end Looked

section Steady

variable {b} {P : σ → Prop} {answers : ServiceAnswers}
  (hsteady : b.client.Steady (scope b.config) P answers) {st : BuildState σ} (h : P st.backend)

include hsteady h

theorem record_steady (series : PlannedSeries) :
    (b.record series st).1.toOption = b.recordGiven? answers st.known series ∧
      (b.record series st).2.known = looked answers st.known [series.descriptor] := by
  obtain ⟨cache, backend, notices⟩ := st
  cases cache with
  | none => exact ⟨rfl, rfl⟩
  | some cache =>
    obtain ⟨hknown, houtcome⟩ :=
      DescriptorCache.ensure_steady hsteady series.descriptor cache h
    refine ⟨?_, congrArg some hknown⟩
    rw [record_eq, kindInEffect, recordGiven?]
    dsimp only [BuildState.known, Option.map_some, kindGiven?]
    rw [← houtcome]
    cases (cache.ensure b.client (scope b.config) series.descriptor backend).outcome <;> rfl

/-- Where a series gets no kind, the others get none either, and nothing more is looked up. -/
theorem records_steady {series : List PlannedSeries}
    (hone : OneKind (series.map (·.descriptor))) :
    (b.records series st).1.toOption = series.mapM (b.recordGiven? answers st.known) ∧
      (b.records series st).2.known = looked answers st.known (series.map (·.descriptor)) := by
  induction series generalizing st with
  | nil => exact ⟨rfl, (looked_nil _).symm⟩
  | cons first rest ih =>
    have hfirst := record_steady hsteady h first
    have hkept := b.record_keeps hsteady.keeps first h
    have hrest : OneKind (rest.map (·.descriptor)) := hone.mono (List.subset_cons_self ..)
    have hagree : ∀ s ∈ rest, ∀ d ∈ [first.descriptor], d.Agrees s.descriptor :=
      fun s hs d hd => List.mem_singleton.mp hd ▸ hone _ (List.mem_cons_self ..) _
        (List.mem_cons_of_mem _ (List.mem_map_of_mem hs))
    rw [records, List.mapM_cons, ← hfirst.1]
    cases hrecord : b.record first st with
    | mk outcome after =>
      rw [hrecord] at hfirst hkept
      cases outcome with
      | error fault =>
        have hnone : kindGiven? answers st.known first.descriptor = none :=
          Option.map_eq_none_iff.mp hfirst.1.symm
        exact ⟨rfl, hfirst.2.trans (looked_of_none st.known hnone _).symm⟩
      | ok r =>
        obtain ⟨hlater, hknown⟩ := ih hkept hrest
        rw [hfirst.2, b.mapM_recordGiven?_looked st.known hagree] at hlater
        rw [hfirst.2, ← looked_append] at hknown
        refine ⟨?_, hknown⟩
        rw [← hlater]
        dsimp only
        cases (b.records rest after).1 <;> rfl

theorem build_steady {snapshot : Snapshot} (hone : OneKind (b.requested snapshot)) :
    (b.build snapshot st).1.toOption = b.blockGiven? answers st.known snapshot ∧
      (b.build snapshot st).2.known = looked answers st.known (b.requested snapshot) := by
  refine ⟨?_, ?_⟩
  · rw [build_toOption, blockGiven?]
    cases hplan : b.plan snapshot with
    | error fault => rfl
    | ok series =>
      rw [b.requested_of_plan hplan] at hone
      exact (records_steady hsteady h hone).1
  · rw [build_after]
    exact (records_steady hsteady h hone).2

/-- **Blocks.** Every snapshot is built as if it were alone, and all descriptors are looked up. -/
theorem blocks_steady {snapshots : List Snapshot}
    (hone : OneKind (snapshots.flatMap b.requested)) :
    b.blocks snapshots st =
        snapshots.filterMap (fun s => (b.blockGiven? answers st.known s).map (s, ·)) ∧
      (b.buildAll snapshots st).2.known =
        looked answers st.known (snapshots.flatMap b.requested) := by
  induction snapshots generalizing st with
  | nil => exact ⟨rfl, (looked_nil _).symm⟩
  | cons snapshot rest ih =>
    rw [List.flatMap_cons] at hone ⊢
    have hfirst := build_steady hsteady h (hone.mono (List.subset_append_left ..))
    have hkept := b.build_keeps hsteady.keeps snapshot h
    have hrest : OneKind (rest.flatMap b.requested) := hone.mono (List.subset_append_right ..)
    have hagree (s : Snapshot) (hs : s ∈ rest) :
        ∀ d ∈ b.requested snapshot, ∀ e ∈ b.requested s, d.Agrees e :=
      fun d hd e he => hone d (List.mem_append_left _ hd) e
        (List.mem_append_right _ (List.mem_flatMap_of_mem hs he))
    -- The notice of a failure does not count as knowledge.
    have hlater {after : BuildState σ} (hkept : P after.backend)
        (hknown : after.known = looked answers st.known (b.requested snapshot)) :
        b.blocks rest after =
            rest.filterMap (fun s => (b.blockGiven? answers st.known s).map (s, ·)) ∧
          (b.buildAll rest after).2.known =
            looked answers st.known (b.requested snapshot ++ rest.flatMap b.requested) := by
      have hrest := ih hkept hrest
      rw [hknown, ← looked_append] at hrest
      refine ⟨hrest.1.trans (List.filterMap_congr fun s hs => ?_), hrest.2⟩
      rw [b.blockGiven?_looked st.known (hagree s hs)]
    rw [blocks, buildAll, List.filterMap_cons, ← hfirst.1]
    cases hbuild : b.build snapshot st with
    | mk outcome after =>
      rw [hbuild] at hfirst hkept
      cases outcome with
      | error fault => exact hlater hkept hfirst.2
      | ok built =>
        obtain ⟨hblocks, hknown⟩ := hlater hkept hfirst.2
        exact ⟨congrArg ((snapshot, built) :: ·) hblocks, hknown⟩

end Steady

/-! ## Reordering -/

/-- The records of a snapshot that is built alone. -/
def alone (st : BuildState σ) (snapshot : Snapshot) : Option (List TimeSeries) :=
  (b.build snapshot st).1.toOption

/-- Snapshots that are built in another order.

- `blocks`: every snapshot gets the records that it gets alone, and is left out if it gets none
  alone.
- `records`: what is sent are these records, in the new order.
- `permuted`: hence the blocks are those of the old order, permuted.
- `kinds`: at the end the cache has the same types with the same kinds. -/
structure Reordered (st : BuildState σ) (snapshots order : List Snapshot) : Prop where
  blocks : b.blocks order st = order.filterMap fun s => (b.alone st s).map (s, ·)
  records : (b.buildAll order st).1 = order.flatMap fun s => (b.alone st s).getD []
  permuted : (b.blocks order st).Perm (b.blocks snapshots st)
  kinds : ∀ key, ((b.buildAll order st).2.cache.bind (·.verified.get? key)) =
    (b.buildAll snapshots st).2.cache.bind (·.verified.get? key)

section Reordering

variable {b} {P : σ → Prop} {answers : ServiceAnswers}
  (hsteady : b.client.Steady (scope b.config) P answers) {st : BuildState σ} (h : P st.backend)
  {snapshots : List Snapshot} (hone : OneKind (snapshots.flatMap b.requested))

include hsteady h hone

theorem blocks_alone :
    b.blocks snapshots st = snapshots.filterMap fun s => (b.alone st s).map (s, ·) := by
  refine (blocks_steady hsteady h hone).1.trans (List.filterMap_congr fun s hs => ?_)
  have hown : OneKind (b.requested s) := hone.mono fun d hd => List.mem_flatMap_of_mem hs hd
  rw [alone, (build_steady hsteady h hown).1]

/-- **Reordering.** Before a service that answers in the same way at every call, and if no type is
asked for under two kinds, the order of the snapshots makes no difference. -/
theorem buildAll_perm : ∀ order, order.Perm snapshots → b.Reordered st snapshots order := by
  intro order hperm
  have hrequested : (order.flatMap b.requested).Perm (snapshots.flatMap b.requested) :=
    hperm.flatMap_right b.requested
  have horder : OneKind (order.flatMap b.requested) := hone.mono hrequested.subset
  have hblocks := blocks_alone hsteady h horder
  refine ⟨hblocks, ?_, ?_, fun key => ?_⟩
  · rw [buildAll_eq, hblocks, List.filterMap_eq_flatMap_toList, List.flatMap_assoc]
    congr 1
    funext s
    cases b.alone st s <;> simp
  · rw [hblocks, blocks_alone hsteady h hone]
    exact hperm.filterMap _
  · have hknown : (b.buildAll order st).2.known = (b.buildAll snapshots st).2.known := by
      rw [(blocks_steady hsteady h horder).2, (blocks_steady hsteady h hone).2, looked, looked]
      congr 1
      funext knowledge
      exact Knowledge.foldl_look_perm hrequested horder knowledge
    have hkind (st : BuildState σ) :
        st.cache.bind (·.verified.get? key) = st.known.bind (·.kind? key) := by
      rw [BuildState.known]
      cases st.cache <;> rfl
    rw [hkind, hkind, hknown]

end Reordering

/-- A service that lists one type as a gauge, and refuses to create another one. -/
def partialAnswers : ServiceAnswers where
  listing := some [(.text "t/jobs", .gauge)]
  accepts d := d.type ≠ "t/errors"

def partialClient : Client Unit where
  write _ _ s := (.ok (), s)
  create _ d s := (if d.type = "t/errors" then .error (.raised "refused") else .ok (), s)
  list _ _ s := (.ok [(.text "t/jobs", .gauge)], s)
  close s := (.ok (), s)

theorem steady_partialClient (scope : DescriptorScope) :
    partialClient.Steady scope (fun _ => True) partialAnswers where
  keeps := ⟨fun _ _ _ _ => trivial, fun _ _ _ _ => trivial⟩
  list_eq _ _ := rfl
  create_eq d _ _ := by
    by_cases h : d.type = "t/errors" <;>
      simp [partialClient, partialAnswers, h, Except.isOk, Except.toBool]

def partialBuilder : SeriesBuilder Unit :=
  ⟨{ metricTypePrefix := .text "t/" }, ⟨1, 2⟩, .identity, partialClient⟩

def countOf (name : String) (tags : List (String × String)) : Snapshot :=
  ⟨⟨name, tags, none, .counter⟩, .counter .zero⟩

/-- Counters of a listed type, of a type that two meters share, and of one that is refused, and
something that cannot be built. -/
def someCounts : List Snapshot :=
  [countOf "jobs" [], countOf "hits" [("region", "eu")],
    ⟨⟨"odd", [], none, .other⟩, .foreign "Odd"⟩, countOf "errors" [],
    countOf "hits" [("region", "us")]]

theorem buildAll_perm_reverse :
    let st : BuildState Unit := ⟨some .empty, (), []⟩
    partialBuilder.Reordered st someCounts someCounts.reverse ∧
      (partialBuilder.buildAll someCounts.reverse st).1.map (fun r => (r.metricType, r.kind)) =
        [("t/hits", .cumulative), ("t/errors", .cumulative), ("t/hits", .cumulative),
          ("t/jobs", .gauge)] := by
  refine ⟨buildAll_perm (steady_partialClient _) trivial ?_ _ someCounts.reverse_perm, rfl⟩
  decide

end SeriesBuilder
end Telemetry

import Telemetry.Proofs.Series.Building
import Telemetry.Proofs.Series.Distribution

/-!
Snapshots that cannot be built, and what building them leaves alone.

Proved here:

* `exists_differences`, `exists_differences_fault`: the counts per bucket exist as long as all
  cumulative counts are finite and the number of observations is within the doubles;
* `obstructed_iff`: a snapshot fails before its first lookup exactly if something stands in its
  way: it is of a foreign kind, its meter has no name, a count of its histogram is no number to
  send, or an integer beyond the doubles comes before all that is sent;
* `build_fault`: after a lookup nothing fails but such an integer, or a listing;
* `buildAll_skips`: hence building many is building those that nothing stands in the way of;
* `failing_builds_touch`: the failures after a lookup do occur.
-/

namespace Telemetry

variable {σ : Type}

/-! ## Counts per bucket -/

theorem units_le_of_bucketFault {count : Int} {buckets : List Bucket} :
    ∀ {previous : Value.Number}, previous.isFinite = true →
      (∀ b ∈ buckets, b.atOrBelow.isFinite = true) →
      bucketFault count previous buckets = none → previous.units ≤ count * unitsPerOne := by
  induction buckets with
  | nil => intro previous hfin _ hfault; exact (bucketFault_nil hfin).mp hfault
  | cons b rest ih =>
    intro previous hfin hb hfault
    rw [List.forall_mem_cons] at hb
    obtain ⟨hle, hrest⟩ := (bucketFault_cons hfin hb.1).mp hfault
    exact Int.le_trans hle (ih hb.1 hb.2 hrest)

namespace Distribution

/-- Finite cumulative counts have differences, however large they are within the doubles. -/
theorem exists_differences {count : Int} (hcount : (Binary64.ofInt count).isInfinite = false)
    {buckets : List Bucket} :
    ∀ {previous : Value.Number}, previous.isFinite = true → 0 ≤ previous.units →
      (∀ b ∈ buckets, b.atOrBelow.isFinite = true) →
      bucketFault count previous buckets = none →
      ∃ counts, differences previous buckets = .ok counts := by
  induction buckets with
  | nil => intro previous _ _ _ _; exact ⟨[], rfl⟩
  | cons b rest ih =>
    intro previous hfin h0 hb hfault
    rw [List.forall_mem_cons] at hb
    obtain ⟨hle, hrest⟩ := (bucketFault_cons hfin hb.1).mp hfault
    obtain ⟨growth, n, hsub, hn⟩ := Value.Number.exists_sub_toInteger hb.1 hfin h0 hle hcount
      (units_le_of_bucketFault hb.1 hb.2 hrest)
    obtain ⟨later, hlater⟩ := ih hb.1 (Int.le_trans h0 hle) hb.2 hrest
    exact ⟨n :: later, differences_cons hsub hn hlater⟩

/-- After a cumulative count that is not finite there are no differences. -/
theorem exists_differences_fault {buckets : List Bucket} {b : Bucket} (hmem : b ∈ buckets)
    (hb : b.atOrBelow.isFinite = false) (previous : Value.Number) :
    ∃ fault, differences previous buckets = .error fault := by
  induction buckets generalizing previous with
  | nil => cases hmem
  | cons c rest ih =>
    cases hsub : c.atOrBelow.sub previous with
    | error fault => exact ⟨fault, by rw [differences, hsub]; rfl⟩
    | ok growth =>
      cases hn : growth.toInteger with
      | error fault =>
        exact ⟨fault, by rw [differences, hsub]; simp only [bind, Except.bind, hn]⟩
      | ok n =>
        rcases List.mem_cons.mp hmem with rfl | hrest
        · obtain ⟨fault, hfault⟩ := Value.Number.exists_sub_fault hb hsub
          rw [hfault] at hn
          cases hn
        · obtain ⟨fault, hfault⟩ := ih hrest c.atOrBelow
          exact ⟨fault, by
            rw [differences, hsub]; simp only [bind, Except.bind, hn, hfault]⟩

end Distribution

/-! ## Tables -/

/-- The counts of a histogram can be sent: every cumulative count is finite, and the number of
observations is within the doubles. -/
structure Histogram.Sendable (h : Histogram) : Prop where
  finite : ∀ b ∈ h.buckets, b.atOrBelow.isFinite = true
  within : (Binary64.ofInt h.count).isInfinite = false

instance (h : Histogram) : Decidable h.Sendable :=
  decidable_of_iff ((∀ b ∈ h.buckets, b.atOrBelow.isFinite = true) ∧
    (Binary64.ofInt h.count).isInfinite = false) ⟨fun p => ⟨p.1, p.2⟩, fun p => ⟨p.1, p.2⟩⟩

theorem Histogram.Sendable.exists_differences {h : Histogram} (hsend : h.Sendable) :
    ∃ counts, Distribution.differences (.float .zero) h.buckets = .ok counts := by
  by_cases hne : h.buckets = []
  · exact ⟨[], by rw [hne]; rfl⟩
  · exact Distribution.exists_differences hsend.within rfl (Int.le_refl 0) hsend.finite
      (h.bucketFault_eq hne)

/-- **Tables of histograms.** They exist for counts that can be sent, and for no others. -/
theorem SeriesTable.exists_ofHistogram_iff (timed : Bool) (h : Histogram) :
    (∃ table, ofHistogram timed h = .ok table) ↔ h.Sendable := by
  constructor
  · rintro ⟨table, htable⟩
    obtain ⟨d, hd, -⟩ := Fault.exists_of_bind_eq_ok htable
    obtain ⟨counts, mean, hcounts, hmean, -⟩ := Distribution.ofHistogram_inv hd
    refine ⟨fun b hb => ?_, h.exists_mean_iff.mp ⟨mean, hmean⟩⟩
    by_contra hnot
    obtain ⟨fault, hfault⟩ := Distribution.exists_differences_fault hb
      (Bool.eq_false_iff.mpr hnot) (.float .zero)
    rw [hfault] at hcounts
    cases hcounts
  · intro hsend
    obtain ⟨counts, hcounts⟩ := hsend.exists_differences
    obtain ⟨mean, hmean⟩ := h.exists_mean_iff.mpr hsend.within
    rw [ofHistogram, Distribution.ofHistogram_eq hcounts hmean,
      Binary64.ofIntWithin_of_not_infinite hsend.within]
    exact ⟨_, rfl⟩

/-- The numbers of a reading that are read as doubles after the first series may have been
made. -/
def Reading.numbers : Reading → List Value.Number
  | .longTaskTimer _ seconds => [seconds]
  | .timer h | .summary h => h.max :: h.percentiles.flatMap fun p => [p.fraction.times 100, p.value]
  | .custom measurements => measurements.map (·.value)
  | _ => []

/-- One of these is an integer beyond the doubles. -/
def Reading.Oversized (reading : Reading) : Prop := ∃ n ∈ reading.numbers, n.isOversized = true

namespace SeriesTable

theorem exists_oversized_of_percentile {h : Histogram} {timed : Bool} {entry : SeriesEntry}
    (hmem : entry ∈ h.percentiles.map (percentile timed)) (hsize : entry.oversized = true) :
    ∃ n ∈ h.percentiles.flatMap fun p => [p.fraction.times 100, p.value], n.isOversized = true := by
  obtain ⟨p, hp, rfl⟩ := List.mem_map.mp hmem
  rcases Bool.or_eq_true_iff.mp hsize with hfraction | hvalue
  · exact ⟨_, List.mem_flatMap.mpr ⟨p, hp, List.mem_cons_self ..⟩, hfraction⟩
  · exact ⟨_, List.mem_flatMap.mpr ⟨p, hp, List.mem_cons_of_mem _ (List.mem_singleton.mpr rfl)⟩,
      hvalue⟩

theorem exists_oversized_of_ofHistogram (timed : Bool) {h : Histogram} {table : List SeriesEntry}
    (htable : ofHistogram timed h = .ok table) {entry : SeriesEntry} (hmem : entry ∈ table)
    (hsize : entry.oversized = true) :
    ∃ n ∈ h.max :: h.percentiles.flatMap fun p => [p.fraction.times 100, p.value],
      n.isOversized = true := by
  obtain ⟨d, count, -, -, rfl⟩ := ofHistogram_spec htable
  rw [List.mem_cons, List.mem_cons, List.mem_cons] at hmem
  rcases hmem with rfl | rfl | rfl | hmem
  · cases hsize
  · exact ⟨h.max, List.mem_cons_self .., hsize⟩
  · cases hsize
  · obtain ⟨n, hn, hover⟩ := exists_oversized_of_percentile hmem hsize
    exact ⟨n, List.mem_cons_of_mem _ hn, hover⟩

/-- An entry that cannot be had comes from an oversized number. -/
theorem oversized_of_mem {reading : Reading} {table : List SeriesEntry}
    (htable : ofReading reading = .ok table) {entry : SeriesEntry} (hmem : entry ∈ table)
    (hsize : entry.oversized = true) : reading.Oversized := by
  cases reading with
  | timer h => exact exists_oversized_of_ofHistogram true htable hmem hsize
  | summary h => exact exists_oversized_of_ofHistogram false htable hmem hsize
  | longTaskTimer active seconds =>
    cases htable
    simp only [List.mem_cons, List.not_mem_nil, or_false] at hmem
    rcases hmem with rfl | rfl
    · cases hsize
    · exact ⟨seconds, List.mem_singleton.mpr rfl, hsize⟩
  | custom measurements =>
    cases htable
    obtain ⟨m, hm, rfl⟩ := List.mem_map.mp hmem
    exact ⟨m.value, List.mem_map_of_mem hm, hsize⟩
  | foreign kind => cases htable
  | _ =>
    cases htable
    cases List.mem_singleton.mp hmem
    cases hsize

end SeriesTable

namespace SeriesBuilder

variable (b : SeriesBuilder σ)

/-! ## What stands in the way of the first lookup -/

/-- Why a snapshot fails before its first lookup. A custom meter without measurements needs no
name, and what comes before an oversized number does not matter as long as it is not sent. -/
inductive Obstructed (snapshot : Snapshot) : Prop
  | foreign (kind : String) (h : snapshot.reading = .foreign kind)
  | unnamed (fault : Fault) (hname : b.naming.name snapshot.id = .error fault)
    (hseries : snapshot.reading ≠ .custom [])
  | unsendable (timed : Bool) (h : Histogram)
    (hread : snapshot.reading.histogram? = some (timed, h)) (hnot : ¬ h.Sendable)
  | oversized (skipped : List SeriesEntry) (entry : SeriesEntry) (rest : List SeriesEntry)
    (htable : SeriesTable.ofReading snapshot.reading = .ok (skipped ++ entry :: rest))
    (hskipped : ∀ e ∈ skipped, e.value.typed? = none) (hsize : entry.oversized = true)

/-- The table of a reading that is no histogram and not foreign. -/
theorem exists_table {reading : Reading} (hforeign : ∀ kind, reading ≠ .foreign kind)
    (hsend : ∀ timed h, reading.histogram? = some (timed, h) → h.Sendable) :
    ∃ table, SeriesTable.ofReading reading = .ok table := by
  cases reading with
  | timer h => exact (SeriesTable.exists_ofHistogram_iff true h).mpr (hsend true h rfl)
  | summary h => exact (SeriesTable.exists_ofHistogram_iff false h).mpr (hsend false h rfl)
  | foreign kind => exact absurd rfl (hforeign kind)
  | _ => exact ⟨_, rfl⟩

theorem eq_custom_of_table_nil {reading : Reading}
    (h : SeriesTable.ofReading reading = .ok []) : reading = .custom [] := by
  cases reading with
  | timer histogram =>
    have htable : SeriesTable.ofHistogram true histogram = .ok [] := h
    obtain ⟨d, count, -, -, hnil⟩ := SeriesTable.ofHistogram_spec htable
    cases hnil
  | summary histogram =>
    have htable : SeriesTable.ofHistogram false histogram = .ok [] := h
    obtain ⟨d, count, -, -, hnil⟩ := SeriesTable.ofHistogram_spec htable
    cases hnil
  | custom measurements =>
    cases measurements with
    | nil => rfl
    | cons m rest => cases h
  | _ => cases h

theorem agendaOf_unnamed {id : MeterId} {fault : Fault} (hname : b.naming.name id = .error fault)
    (entry : SeriesEntry) (rest : List SeriesEntry) :
    ∃ fault', b.agendaOf id (entry :: rest) = ⟨[], some fault'⟩ := by
  rw [agendaOf, planRow, hname]
  cases entry.oversized with
  | true => exact ⟨_, rfl⟩
  | false => exact ⟨_, rfl⟩

/-- A table fails before its first lookup if an oversized entry comes before all that are sent. -/
theorem agendaOf_oversized (id : MeterId) {skipped : List SeriesEntry} {entry : SeriesEntry}
    (hskipped : ∀ e ∈ skipped, e.value.typed? = none) (hsize : entry.oversized = true)
    (rest : List SeriesEntry) :
    ∃ fault, b.agendaOf id (skipped ++ entry :: rest) = ⟨[], some fault⟩ := by
  cases hname : b.naming.name id with
  | error fault =>
    cases skipped with
    | nil => exact b.agendaOf_unnamed hname entry rest
    | cons first more => exact b.agendaOf_unnamed hname first _
  | ok name =>
    induction skipped with
    | nil =>
      rw [List.nil_append, agendaOf, planRow, if_pos hsize]
      exact ⟨_, rfl⟩
    | cons first more ih =>
      rw [List.forall_mem_cons] at hskipped
      obtain ⟨fault, hmore⟩ := ih hskipped.2
      rw [List.cons_append, agendaOf, planRow, hname]
      cases first.oversized with
      | true => exact ⟨_, rfl⟩
      | false =>
        refine ⟨fault, ?_⟩
        simp only [Bool.false_eq_true, if_false, Except.map, planEntry, hskipped.1, Option.map_none,
          Option.toList_none, List.nil_append, hmore]

theorem exists_oversized_of_agendaOf {id : MeterId} {name : String}
    (hname : b.naming.name id = .ok name) {table : List SeriesEntry} {fault : Fault}
    (h : b.agendaOf id table = ⟨[], some fault⟩) :
    ∃ skipped entry rest, table = skipped ++ entry :: rest ∧
      (∀ e ∈ skipped, e.value.typed? = none) ∧ entry.oversized = true := by
  induction table with
  | nil => cases h
  | cons entry rest ih =>
    rw [agendaOf, planRow, hname] at h
    cases hsize : entry.oversized with
    | true => exact ⟨[], entry, rest, rfl, List.forall_mem_nil _, hsize⟩
    | false =>
      rw [hsize] at h
      simp only [Bool.false_eq_true, if_false, Except.map, Agenda.mk.injEq,
        List.append_eq_nil_iff] at h
      have hskipped : entry.value.typed? = none := by
        have hentry := h.1.1
        rw [planEntry] at hentry
        cases htyped : entry.value.typed? with
        | none => rfl
        | some value =>
          rw [htyped] at hentry
          cases hentry
      obtain ⟨skipped, late, after, rfl, hmore, hlate⟩ := ih (Agenda.ext h.1.2 h.2)
      exact ⟨entry :: skipped, late, after, rfl, List.forall_mem_cons.mpr ⟨hskipped, hmore⟩, hlate⟩

/-- **Obstacles** are what ends a snapshot before its first lookup. -/
theorem obstructed_iff (snapshot : Snapshot) :
    b.Obstructed snapshot ↔ ∃ fault, b.agenda snapshot = ⟨[], some fault⟩ := by
  rw [agenda]
  constructor
  · intro hobstructed
    cases hobstructed with
    | foreign kind h => exact ⟨_, by rw [h]; rfl⟩
    | unnamed fault hname hne =>
      cases htable : SeriesTable.ofReading snapshot.reading with
      | error fault' => exact ⟨fault', rfl⟩
      | ok table =>
        cases table with
        | nil => exact absurd (eq_custom_of_table_nil htable) hne
        | cons entry rest => exact b.agendaOf_unnamed hname entry rest
    | unsendable timed h hread hnot =>
      cases htable : SeriesTable.ofReading snapshot.reading with
      | error fault => exact ⟨fault, rfl⟩
      | ok table =>
        rw [SeriesTable.ofReading_histogram hread] at htable
        exact absurd ((SeriesTable.exists_ofHistogram_iff timed h).mp ⟨table, htable⟩) hnot
    | oversized skipped entry rest htable hskipped hsize =>
      rw [htable]
      exact b.agendaOf_oversized snapshot.id hskipped hsize rest
  · rintro ⟨fault, hagenda⟩
    by_contra hclear
    obtain ⟨table, htable⟩ := exists_table (fun kind h => hclear (.foreign kind h))
      (fun timed h hread => by_contra fun hnot => hclear (.unsendable timed h hread hnot))
    rw [htable] at hagenda
    cases hname : b.naming.name snapshot.id with
    | error fault' =>
      refine hclear (.unnamed fault' hname fun hread => ?_)
      rw [hread] at htable
      cases htable
      cases hagenda
    | ok name =>
      obtain ⟨skipped, entry, rest, rfl, hskipped, hsize⟩ :=
        b.exists_oversized_of_agendaOf hname hagenda
      exact hclear (.oversized skipped entry rest htable hskipped hsize)

instance (snapshot : Snapshot) : Decidable (b.Obstructed snapshot) :=
  match h : b.agenda snapshot with
  | ⟨[], some fault⟩ => .isTrue ((b.obstructed_iff snapshot).mpr ⟨fault, h⟩)
  | ⟨[], none⟩ => .isFalse fun hobstructed => by
      obtain ⟨fault, hagenda⟩ := (b.obstructed_iff snapshot).mp hobstructed
      rw [h] at hagenda
      cases hagenda
  | ⟨_ :: _, _⟩ => .isFalse fun hobstructed => by
      obtain ⟨fault, hagenda⟩ := (b.obstructed_iff snapshot).mp hobstructed
      rw [h] at hagenda
      cases hagenda

/-- A snapshot with something in its way fails before its first lookup, whatever the cache and
the service are. -/
theorem build_obstructed {snapshot : Snapshot} (h : b.Obstructed snapshot) :
    ∃ fault, ∀ st, b.build snapshot st = (.error fault, st) := by
  obtain ⟨fault, hagenda⟩ := (b.obstructed_iff snapshot).mp h
  exact ⟨fault, fun st => by rw [build_eq, hagenda]; rfl⟩

/-! ## Failures of a build -/

/-- What ends the table of a named meter is an oversized entry. -/
theorem agendaOf_fault {id : MeterId} {name : String} (hname : b.naming.name id = .ok name)
    {table : List SeriesEntry} {fault : Fault} (h : (b.agendaOf id table).fault = some fault) :
    fault = .integerTooLarge ∧ ∃ entry ∈ table, entry.oversized = true := by
  induction table with
  | nil => cases h
  | cons entry rest ih =>
    rw [agendaOf, planRow, hname] at h
    cases hsize : entry.oversized with
    | true =>
      rw [hsize, if_pos rfl] at h
      cases h
      exact ⟨rfl, entry, List.mem_cons_self .., hsize⟩
    | false =>
      rw [hsize] at h
      obtain ⟨hfault, late, hmem, hlate⟩ := ih h
      exact ⟨hfault, late, List.mem_cons_of_mem _ hmem, hlate⟩

/-- Whatever ends a snapshot after a lookup is an integer beyond the doubles. -/
theorem agenda_fault {snapshot : Snapshot} {first : PlannedSeries} {rest : List PlannedSeries}
    {fault : Fault} (h : b.agenda snapshot = ⟨first :: rest, some fault⟩) :
    fault = .integerTooLarge ∧ snapshot.reading.Oversized := by
  rw [agenda] at h
  cases htable : SeriesTable.ofReading snapshot.reading with
  | error fault' =>
    rw [htable] at h
    cases h
  | ok table =>
    rw [htable] at h
    cases hname : b.naming.name snapshot.id with
    | error fault' =>
      cases table with
      | nil => cases h
      | cons entry later =>
        obtain ⟨_, hnothing⟩ := b.agendaOf_unnamed hname entry later
        dsimp only at h
        rw [hnothing] at h
        cases h
    | ok name =>
      obtain ⟨hfault, entry, hmem, hsize⟩ := b.agendaOf_fault hname (congrArg Agenda.fault h)
      exact ⟨hfault, SeriesTable.oversized_of_mem htable hmem hsize⟩

/-- **Failures of a build.** Either something stands in the way, and then nothing is touched; or
an integer beyond the doubles comes after a lookup; or a lookup fails by a listed type that is no
key. -/
theorem build_fault {snapshot : Snapshot} {st st' : BuildState σ} {fault : Fault}
    (h : b.build snapshot st = (.error fault, st')) :
    b.Obstructed snapshot ∧ st' = st ∨ fault = .integerTooLarge ∧ snapshot.reading.Oversized ∨
      (∃ shape, fault = .notKey shape) ∧ ¬ b.client.ListsKeys := by
  rw [build_eq, carryOut] at h
  cases hmade : b.records (b.agenda snapshot).series st with
  | mk outcome after =>
    rw [hmade] at h
    cases outcome with
    | error fault' =>
      cases h
      exact Or.inr (Or.inr (b.records_fault hmade))
    | ok rs =>
      cases hagenda : b.agenda snapshot with
      | mk series fault' =>
        rw [hagenda] at h hmade
        cases fault' with
        | none => cases h
        | some fault' =>
          cases h
          cases series with
          | nil =>
            cases hmade
            exact Or.inl ⟨(b.obstructed_iff snapshot).mpr ⟨fault, hagenda⟩, rfl⟩
          | cons first rest => exact Or.inr (Or.inl (b.agenda_fault hagenda))

end SeriesBuilder

/-! ## Notices do not matter -/

/-- The same cache and the same service, whatever was noticed. -/
structure BuildState.Alike (st other : BuildState σ) : Prop where
  cache : st.cache = other.cache
  backend : st.backend = other.backend

theorem BuildState.Alike.refl (st : BuildState σ) : st.Alike st := ⟨rfl, rfl⟩

namespace SeriesBuilder

section Alike

variable (b : SeriesBuilder σ) {st other : BuildState σ} (h : st.Alike other)

include h

theorem record_alike (series : PlannedSeries) :
    (b.record series st).1 = (b.record series other).1 ∧
      (b.record series st).2.Alike (b.record series other).2 := by
  obtain ⟨cache, backend, notices⟩ := st
  obtain ⟨_, _, notices'⟩ := other
  obtain ⟨rfl, rfl⟩ := h
  cases cache with
  | none => exact ⟨rfl, rfl, rfl⟩
  | some cache => exact ⟨rfl, rfl, rfl⟩

theorem records_alike (series : List PlannedSeries) :
    (b.records series st).1 = (b.records series other).1 ∧
      (b.records series st).2.Alike (b.records series other).2 := by
  induction series generalizing st other with
  | nil => exact ⟨rfl, h⟩
  | cons first rest ih =>
    have hfirst := b.record_alike h first
    rw [records, records]
    cases hst : b.record first st with
    | mk outcome after =>
      cases hother : b.record first other with
      | mk outcome' after' =>
        rw [hst, hother] at hfirst
        obtain ⟨rfl, hafter⟩ := hfirst
        cases outcome with
        | error fault => exact ⟨rfl, hafter⟩
        | ok r =>
          obtain ⟨hrest, hlast⟩ := ih hafter
          exact ⟨congrArg (Except.map (r :: ·)) hrest, hlast⟩

theorem build_alike (snapshot : Snapshot) :
    (b.build snapshot st).1 = (b.build snapshot other).1 ∧
      (b.build snapshot st).2.Alike (b.build snapshot other).2 := by
  obtain ⟨hrecords, hafter⟩ := b.records_alike h (b.agenda snapshot).series
  rw [build_eq, build_eq, carryOut, carryOut, hrecords]
  exact ⟨rfl, hafter⟩

/-- What nothing stands in the way of is built as if it were alone. -/
theorem buildAll_alike (snapshots : List Snapshot) :
    (b.buildAll snapshots st).1 =
        (b.buildAll (snapshots.filter fun s => ¬ b.Obstructed s) other).1 ∧
      (b.buildAll snapshots st).2.Alike
        (b.buildAll (snapshots.filter fun s => ¬ b.Obstructed s) other).2 := by
  induction snapshots generalizing st other with
  | nil => exact ⟨rfl, h⟩
  | cons snapshot rest ih =>
    by_cases hclear : b.Obstructed snapshot
    · obtain ⟨fault, hbuild⟩ := b.build_obstructed hclear
      rw [List.filter_cons_of_neg (by simpa using hclear), buildAll, hbuild]
      exact ih ⟨h.cache, h.backend⟩
    · have hfirst := b.build_alike h snapshot
      rw [List.filter_cons_of_pos (by simpa using hclear), buildAll, buildAll]
      cases hst : b.build snapshot st with
      | mk outcome after =>
        cases hother : b.build snapshot other with
        | mk outcome' after' =>
          rw [hst, hother] at hfirst
          obtain ⟨rfl, hafter⟩ := hfirst
          cases outcome with
          | error fault => exact ih ⟨hafter.cache, hafter.backend⟩
          | ok built =>
            obtain ⟨hrest, hlast⟩ := ih hafter
            exact ⟨congrArg (built ++ ·) hrest, hlast⟩

end Alike

/-- **Failing snapshots.** One with something in its way fails and touches neither the cache nor
the service; any other failure is an integer beyond the doubles after a lookup or a listed type
that is no key; and a list of snapshots gives the records, and leaves the cache and the service, of
the list without those that have something in their way. -/
theorem buildAll_skips (b : SeriesBuilder σ) (st : BuildState σ) :
    (∀ snapshot, b.Obstructed snapshot → ∃ fault, b.build snapshot st = (.error fault, st)) ∧
    (∀ snapshot fault st', b.build snapshot st = (.error fault, st') →
      b.Obstructed snapshot ∧ st' = st ∨ fault = .integerTooLarge ∧ snapshot.reading.Oversized ∨
        (∃ shape, fault = .notKey shape) ∧ ¬ b.client.ListsKeys) ∧
    ∀ snapshots,
      let all := b.buildAll snapshots st
      let healthy := b.buildAll (snapshots.filter fun s => ¬ b.Obstructed s) st
      all.1 = healthy.1 ∧ all.2.cache = healthy.2.cache ∧ all.2.backend = healthy.2.backend := by
  refine ⟨fun snapshot h => ?_, fun snapshot fault st' h => b.build_fault h, fun snapshots => ?_⟩
  · obtain ⟨fault, hbuild⟩ := b.build_obstructed h
    exact ⟨fault, hbuild st⟩
  · obtain ⟨hrecords, hstate⟩ := b.buildAll_alike (.refl st) snapshots
    exact ⟨hrecords, hstate.cache, hstate.backend⟩

/-- A convention by which one meter has no name. -/
def secretive : NamingConvention :=
  { NamingConvention.identity with
    name := fun id => if id.name = "secret" then .error (.raised "no name") else .ok id.name }

def secretiveBuilder : SeriesBuilder MemoryBackend := { plainBuilder with naming := secretive }

def healthyCount : Snapshot := ⟨⟨"jobs", [], none, .counter⟩, .counter .zero⟩

def secretGauge : Snapshot := ⟨⟨"secret", [], none, .gauge⟩, .gauge .zero⟩

def foreignSnapshot : Snapshot := ⟨⟨"odd", [], none, .other⟩, .foreign "Odd"⟩

/-- A histogram whose only cumulative count is NaN. -/
def unknownCounts : Histogram := ⟨1, 1, .float 1, [], [⟨1, .float .nan⟩], by decide⟩

def unknownLaps : Snapshot := ⟨⟨"laps", [], none, .timer⟩, .timer unknownCounts⟩

/-- A histogram with as many observations as no double can hold. -/
def hugeCount : Histogram := ⟨2 ^ 1024, 1, .float 1, [], [], rfl⟩

def hugeSizes : Snapshot := ⟨⟨"sizes", [], none, .distributionSummary⟩, .summary hugeCount⟩

/-- A measurement as large as no double, after another one. -/
def measuredAfter (first : Binary64) : Snapshot :=
  ⟨⟨"disk", [], none, .other⟩, .custom [⟨.value, .float first⟩, ⟨.total, .int (10 ^ 400)⟩]⟩

theorem buildAll_skips_mixed :
    secretiveBuilder.Obstructed unknownLaps ∧
    (∃ fault, secretiveBuilder.build unknownLaps ⟨some .empty, {}, []⟩ =
      (.error fault, ⟨some .empty, {}, []⟩)) ∧
    (secretiveBuilder.buildAll
        [foreignSnapshot, secretGauge, healthyCount, unknownLaps, hugeSizes, measuredAfter .nan]
        ⟨some .empty, {}, []⟩).1 =
      (secretiveBuilder.buildAll [healthyCount] ⟨some .empty, {}, []⟩).1 ∧
    (secretiveBuilder.buildAll [healthyCount] ⟨some .empty, {}, []⟩).1.length = 1 := by
  have hforeign : secretiveBuilder.Obstructed foreignSnapshot := .foreign "Odd" rfl
  have hsecret : secretiveBuilder.Obstructed secretGauge :=
    .unnamed (.raised "no name") rfl nofun
  have hlaps : secretiveBuilder.Obstructed unknownLaps :=
    .unsendable true unknownCounts rfl (by decide +kernel)
  have hsizes : secretiveBuilder.Obstructed hugeSizes :=
    .unsendable false hugeCount rfl (by decide +kernel)
  have hdisk : secretiveBuilder.Obstructed (measuredAfter .nan) :=
    .oversized [SeriesTable.number (some "value") false (.float .nan)] _ [] rfl (by decide)
      (by decide +kernel)
  have hhealthy : ¬ secretiveBuilder.Obstructed healthyCount := by
    rw [obstructed_iff]
    rintro ⟨_, hagenda⟩
    cases hagenda
  obtain ⟨hfails, -, hall⟩ := buildAll_skips secretiveBuilder ⟨some .empty, {}, []⟩
  have hrecords := (hall
    [foreignSnapshot, secretGauge, healthyCount, unknownLaps, hugeSizes, measuredAfter .nan]).1
  simp only [List.filter, hforeign, hsecret, hlaps, hsizes, hdisk, hhealthy, not_true_eq_false,
    not_false_eq_true, decide_true, decide_false] at hrecords
  exact ⟨hlaps, hfails unknownLaps hlaps, hrecords, rfl⟩

/-- A service that counts its calls and lists a list as a type. -/
def oddListing : Client Nat where
  write _ _ n := (.ok (), n + 1)
  create _ _ n := (.ok (), n + 1)
  list _ _ n := (.ok [(.text "t/queue", .gauge), (.list [.text "t"], .gauge)], n + 1)
  close n := (.ok (), n + 1)

/-- **Failures after a lookup.** A listing with a type that is no key fails the snapshot whose
lookup asked for it, after the service was called and a kind was learnt; and a measurement beyond
the doubles fails a custom meter after the measurement before it was created. -/
theorem failing_builds_touch :
    (∃ cache, SeriesBuilder.build ⟨plainBuilder.config, ⟨1, 2⟩, .identity, oddListing⟩ healthyCount
        ⟨some .empty, 0, []⟩ = (.error (.notKey .list), ⟨some cache, 1, []⟩) ∧
      cache.size = 1) ∧
    let built := plainBuilder.build (measuredAfter 1) ⟨some .empty, {}, []⟩
    built.1.map (·.length) = .error .integerTooLarge ∧
      built.2.backend.creations.map (·.type) = ["t/disk/value"] := by
  exact ⟨⟨_, rfl, rfl⟩, by decide +kernel⟩

end SeriesBuilder
end Telemetry

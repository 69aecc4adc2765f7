import Mathlib.Algebra.BigOperators.Group.List.Basic
import Mathlib.Algebra.Ring.Nat
import Telemetry.Proofs.Publication.Partition
import Telemetry.Proofs.Publication.Pool

/-!
Accounts of a publication: which partitions are attempted, and what the result says about
them, whether they go out one after another or by several workers at once.

Proved here:

* `foldl_add`: the sums over partitions and outcomes, each in closed form;
* `publish_sent`: the partitions of a publication are sent by workers, of whom there is one unless
  more are set and there are partitions for them;
* `publish_journaling`: so every partition of the records is written once;
* `partitions_eq`: the partitions are slices of the records;
* `publish_accounts`: all of it for services that judge a partition by what is in it.
-/

namespace Telemetry

variable {σ : Type}

/-! ## Sums -/

namespace PublishResult

theorem foldl_add {α : Type} (outcomes : List (List α × Option Fault)) (r : PublishResult) :
    outcomes.foldl (fun r p => r.add p.1 p.2) r =
      { partitionsSent := r.partitionsSent + outcomes.countP (·.2.isNone)
        partitionsFailed := r.partitionsFailed + outcomes.countP (·.2.isSome)
        recordsSent := r.recordsSent +
          ((outcomes.filter (·.2.isNone)).map (·.1.length)).sum
        recordsDropped := r.recordsDropped +
          ((outcomes.filter (·.2.isSome)).map (·.1.length)).sum
        errors := r.errors ++ (outcomes.filterMap (·.2)).map (·.message) } := by
  induction outcomes generalizing r with
  | nil => simp
  | cons p rest ih =>
    obtain ⟨part, outcome⟩ := p
    rw [List.foldl_cons, ih]
    cases outcome with
    | none => simp [add, Int.add_assoc, Int.add_comm]
    | some fault => simp [add, Int.add_assoc, Int.add_comm]

/-- Whatever becomes of partitions, the result accounts for all that is in them. -/
theorem total_tally {α : Type} (outcomes : List (List α × Option Fault)) :
    (tally outcomes).recordsSent + (tally outcomes).recordsDropped =
      (outcomes.map (·.1)).flatten.length := by
  have hsum : ((outcomes.filter (·.2.isNone)).map (·.1.length)).sum +
      ((outcomes.filter (·.2.isSome)).map (·.1.length)).sum =
      (outcomes.map (·.1)).flatten.length := by
    induction outcomes with
    | nil => rfl
    | cons p rest ih =>
      rw [List.map_cons, List.flatten_cons, List.length_append, ← ih]
      cases houtcome : p.2 with
      | none => simp [houtcome, Nat.add_assoc]
      | some fault => simp [houtcome, Nat.add_left_comm]
  rw [tally, foldl_add]
  dsimp only
  omega

theorem failed_tally {α : Type} (outcomes : List (List α × Option Fault)) :
    (tally outcomes).partitionsFailed = outcomes.countP (·.2.isSome) := by
  rw [tally, foldl_add]
  exact Int.zero_add _

/-- The result says what became of records that were sent in partitions of a size, of which
the service accepted those without a verdict. -/
structure Accounts (verdict : List TimeSeries → Option Fault) (size : Nat)
    (records : List TimeSeries) (parts : List (List TimeSeries)) (r : PublishResult) : Prop where
  within : ∀ part ∈ parts, 1 ≤ part.length ∧ part.length ≤ size
  flatten_eq : parts.flatten = records
  partitions_eq : r.partitionsSent + r.partitionsFailed = ((records.length + size - 1) / size : Nat)
  sent_eq : r.recordsSent =
    ((parts.filter fun part => (verdict part).isNone).map (·.length)).sum
  dropped_eq : r.recordsDropped =
    ((parts.filter fun part => (verdict part).isSome).map (·.length)).sum
  total_eq : r.recordsSent + r.recordsDropped = records.length
  errors_eq : r.errors = (parts.filterMap verdict).map Fault.message
  success_iff : r.success = true ↔ r.recordsDropped = 0

/-- The sums over partitions and the verdicts on them account for the records in them. -/
theorem accounts_tally (verdict : List TimeSeries → Option Fault) {size : Nat}
    {records : List TimeSeries} {parts : List (List TimeSeries)}
    (hwithin : ∀ part ∈ parts, 1 ≤ part.length ∧ part.length ≤ size)
    (hflatten : parts.flatten = records)
    (hcount : parts.length = (records.length + size - 1) / size) :
    (tally (parts.zip (parts.map verdict))).Accounts verdict size records parts := by
  have hzip : parts.zip (parts.map verdict) = parts.map fun part => (part, verdict part) := by
    simpa using List.zip_map' (f := id) (g := verdict) (l := parts)
  have htotal := total_tally (parts.zip (parts.map verdict))
  rw [List.map_fst_zip (by simp), hflatten] at htotal
  have hall := List.length_eq_countP_add_countP (fun part => (verdict part).isNone) (l := parts)
  have hsome : parts.countP (fun part => ¬ (verdict part).isNone = true) =
      parts.countP fun part => (verdict part).isSome :=
    List.countP_congr fun part _ => by cases verdict part <;> simp
  have hnone : parts.countP (fun part => (verdict part).isSome) = 0 ↔
      ((parts.filter fun part => (verdict part).isSome).map (·.length)).sum = 0 := by
    rw [List.countP_eq_zero, List.sum_eq_zero_iff_forall_eq_nat]
    simp only [List.forall_mem_map, List.mem_filter]
    constructor
    · intro hfailed part hpart
      exact absurd hpart.2 (hfailed part hpart.1)
    · intro hempty part hpart hfailed
      have := hwithin part hpart
      have := hempty part ⟨hpart, hfailed⟩
      omega
  rw [tally, foldl_add, hzip] at htotal ⊢
  simp only [List.countP_map, List.filter_map, List.map_map, List.filterMap_map, Function.comp_def,
    List.nil_append, zero_add] at htotal ⊢
  rw [hsome, hcount] at hall
  refine ⟨hwithin, hflatten, ?_, rfl, rfl, htotal, rfl, ?_⟩
  · dsimp only
    omega
  · rw [success, beq_iff_eq]
    dsimp only
    omega

end PublishResult

namespace Publisher

/-! ## Publications -/

theorem sendAll_journaling (client : Client σ) (project : String)
    (parts : List (List TimeSeries)) (t : σ × List (List TimeSeries)) :
    (sendAll client.journaling project parts t).2.2 = t.2 ++ parts := by
  induction parts generalizing t with
  | nil => exact (List.append_nil _).symm
  | cons part rest ih =>
    rw [sendAll, ih, send_journaling, List.append_assoc, List.singleton_append]

/-- The partitions of any configuration hold the records in their order. -/
theorem flatten_of_partitions {config : ExportConfig} {records : List TimeSeries}
    {parts : List (List TimeSeries)} (h : partitions config records = .ok parts) :
    parts.flatten = records := by
  obtain ⟨size, -, h⟩ := Fault.exists_of_bind_eq_ok h
  obtain ⟨filed, hfiled, h⟩ := Fault.exists_of_bind_eq_ok h
  obtain ⟨_, -, h⟩ := Fault.exists_of_bind_eq_ok h
  cases h
  exact Partition.flatten_of_ofListBy hfiled

/-- The workers of a publication; there is always one. -/
def crew (config : ExportConfig) (parts : List (List TimeSeries)) : Nat :=
  max 1 (workers config parts.length)

/-- **Publication.** The partitions are sent by the workers, and the result and the notices are
those of the outcomes. -/
theorem publish_sent {config : ExportConfig} {records : List TimeSeries}
    {parts : List (List TimeSeries)} (hparts : partitions config records = .ok parts)
    (client : Client σ) (s : σ) :
    ∃ pool after, Pool.Sent client config.projectName (crew config parts) parts s pool after ∧
      publish config client records s =
        (.ok (.tally (parts.zip (pool.outcomes parts.length))), after,
          noticesOf (pool.answered.map (·.2))) := by
  rw [publish, hparts, crew]
  dsimp only
  split
  · next hcrew =>
    rw [Nat.max_eq_right (Nat.le_of_lt hcrew)]
    exact ⟨_, _, Pool.sendPooled_sent (by omega) parts s, rfl⟩
  · next hcrew =>
    rw [Nat.max_eq_left (Nat.not_lt.mp hcrew)]
    obtain ⟨pool, hsent, houtcomes, hanswered⟩ :=
      @Pool.sendAll_sent σ client config.projectName parts s
    exact ⟨pool, _, hsent, by rw [houtcomes, hanswered]⟩

/-- **Writing.** Every partition is written once, whatever becomes of the others, and in their order
if there is one worker. -/
theorem publish_journaling (config : ExportConfig) (client : Client σ)
    (records : List TimeSeries) (t : σ × List (List TimeSeries)) :
    let parts := (partitions config records).toOption.getD []
    ∃ written, (publish config client.journaling records t).2.1.2 = t.2 ++ written ∧
      written.Perm parts ∧ (crew config parts = 1 → written = parts) := by
  cases hparts : partitions config records with
  | error fault =>
    refine ⟨[], ?_, List.Perm.refl _, fun _ => rfl⟩
    rw [publish, hparts]
    exact (List.append_nil t.2).symm
  | ok parts =>
    obtain ⟨pool, after, hsent, hpublish⟩ := publish_sent hparts client.journaling t
    obtain ⟨written, hjournal, hperm⟩ := hsent.attempted
    refine ⟨written, by rw [hpublish, hjournal], hperm, fun hone => ?_⟩
    have hnotPooled : ¬ 1 < workers config parts.length :=
      Nat.not_lt.mpr (Nat.le_trans (Nat.le_max_right ..) (Nat.le_of_eq hone))
    have hpublish' : (publish config client.journaling records t).2.1.2 = t.2 ++ parts := by
      rw [publish, hparts]
      dsimp only
      rw [if_neg hnotPooled]
      exact sendAll_journaling client config.projectName parts t
    rw [hpublish, hjournal] at hpublish'
    exact List.append_cancel_left hpublish'

section Config

variable {config : ExportConfig} {batch workers : Int}
  (hbatch : config.batchSize.number? = some (.int batch)) (hpos : 1 ≤ batch)
  (hworkers : config.maxWorkers.number? = some (.int workers))

/-- The number of records in a full partition. -/
def fullPartition (batch : Int) : Nat := (min batch seriesPerRequest).toNat

include hpos in
theorem fullPartition_pos : 0 < fullPartition batch := by
  rw [fullPartition, seriesPerRequest]
  omega

include hbatch hpos hworkers

theorem partitions_eq (records : List TimeSeries) :
    partitions config records = .ok (Partition.slices (fullPartition batch) records) := by
  obtain ⟨size, hsize, hnumber⟩ : ∃ size, config.partitionSize = .ok size ∧
      size.number? = some (.int (min batch seriesPerRequest)) := by
    rw [ExportConfig.partitionSize, Value.minWith, hbatch]
    refine ⟨_, rfl, ?_⟩
    by_cases hlarge : seriesPerRequest < batch
    · rw [show (Value.Number.int batch).gtInt seriesPerRequest = true from decide_eq_true hlarge,
        if_pos rfl, Int.min_eq_right (Int.le_of_lt hlarge)]
      rfl
    · rw [show (Value.Number.int batch).gtInt seriesPerRequest = false from
        decide_eq_false hlarge, if_neg (by simp), Int.min_eq_left (Int.not_lt.mp hlarge), hbatch]
  have hslices := Partition.ofListBy_eq hnumber (by rw [seriesPerRequest]; omega) records
  have hmore : config.maxWorkers.moreThan 1 = .ok (decide (1 < workers)) := by
    rw [Value.moreThan, hworkers]
    rfl
  simp only [partitions, hsize, hmore]
  rw [← fullPartition] at hslices
  exact congrArg (· >>= fun parts => pure parts) hslices

omit hbatch hpos in
/-- There are as many workers as the setting says, but no more than partitions. -/
theorem crew_eq (hwork : 1 ≤ workers) (parts : List (List TimeSeries)) :
    crew config parts = max 1 (min workers.toNat parts.length) := by
  have hcount (n : Nat) :
      (List.range n).countP (fun i : Nat => decide ((i : Int) < workers)) =
        min workers.toNat n := by
    induction n with
    | zero => exact (Nat.min_zero _).symm
    | succ n ih =>
      rw [List.range_succ, List.countP_append, ih, List.countP_singleton]
      simp only [decide_eq_true_eq]
      split <;> omega
  have hgt (i : Int) : (Value.Number.int workers).gtInt i = decide (i < workers) := rfl
  rw [crew, Publisher.workers, hworkers]
  simp only [hgt, hcount, decide_eq_true_eq]
  split <;> omega

end Config

/-! ## Accounts -/

/-- What is true of publishing records, with a result and by partitions.

- `returned`: nothing is raised.
- `sent`: the partitions are sent by so many workers at most.
- `attempted`: each partition is written once, in their order if one worker sends them.
- `accounts`: the result accounts for all records.
- `finishes`: workers that send several partitions at once never get stuck.
- `same_result`, `same_attempts`: in whatever order they finish, they get the same result and
  write the same partitions. -/
structure Published (config : ExportConfig) (client : Client σ)
    (verdict : List TimeSeries → Option Fault) (size workers : Nat) (records : List TimeSeries)
    (s : σ) (result : PublishResult) (parts : List (List TimeSeries)) : Prop where
  returned : (publish config client records s).1 = .ok result
  sent : ∃ pool, Pool.Sent client config.projectName workers parts s pool
    (publish config client records s).2.1
  attempted : (publish config client.journaling records (s, [])).2.1.2.Perm parts ∧
    (workers ≤ 1 ∨ parts.length ≤ 1 →
      (publish config client.journaling records (s, [])).2.1.2 = parts)
  accounts : result.Accounts verdict size records parts
  finishes : ∀ x, Pool.Run client config.projectName workers (.ofParts parts, s) x →
    ∃ pool after, Pool.Run client config.projectName workers x (pool, after) ∧ pool.Finished
  same_result : ∀ pool after, Pool.Sent client config.projectName workers parts s pool after →
    .tally (parts.zip (pool.outcomes parts.length)) = result
  same_attempts : ∀ pool after,
    Pool.Sent client.journaling config.projectName workers parts (s, []) pool after →
      after.2.Perm parts

/-- **Accounts of a publication**, for a service that judges each partition by what is in
it. -/
theorem publish_accounts {config : ExportConfig} {batch workers : Int}
    (hbatch : config.batchSize.number? = some (.int batch)) (hpos : 1 ≤ batch)
    (hworkers : config.maxWorkers.number? = some (.int workers)) (hwork : 1 ≤ workers)
    {client : Client σ} {verdict : List TimeSeries → Option Fault}
    (hverdict : client.JudgesBy config.projectName verdict) (records : List TimeSeries) (s : σ) :
    ∃ result parts, Published config client verdict (min batch 200).toNat workers.toNat records s
      result parts := by
  have hsize := fullPartition_pos hpos
  have hparts := partitions_eq hbatch hpos hworkers records
  obtain ⟨written, hwritten, hperm, horder⟩ := publish_journaling config client records (s, [])
  rw [hparts, Except.toOption, Option.getD_some] at hperm horder
  have hwithin (part : List TimeSeries)
      (hpart : part ∈ Partition.slices (fullPartition batch) records) :=
    Partition.length_mem_slices hsize hpart
  have hflatten := Partition.flatten_slices hsize records
  have hcount := Partition.length_slices (fullPartition batch) records
  generalize Partition.slices (fullPartition batch) records = parts at *
  have hcrew := crew_eq hworkers hwork parts
  obtain ⟨pool, after, hsent, hpublish⟩ := publish_sent hparts client s
  refine ⟨.tally (parts.zip (parts.map verdict)), parts, ?_, ?_, ?_, ?_, ?_, ?_, ?_⟩
  · rw [hpublish, hsent.outcomes_eq hverdict]
  · rw [hpublish]
    exact ⟨pool, hsent.mono (by omega)⟩
  · rw [hwritten, List.nil_append]
    exact ⟨hperm, fun hone => horder (by omega)⟩
  · exact PublishResult.accounts_tally verdict hwithin hflatten hcount
  · exact fun x _ => Pool.exists_finished (by omega) x
  · intro pool after hsent
    rw [hsent.outcomes_eq hverdict]
  · intro pool after hsent
    obtain ⟨written, hjournal, hperm⟩ := hsent.attempted
    rwa [hjournal]

/-- Partitions with one record are refused. -/
def refuseShort (part : List TimeSeries) : Option Fault :=
  if part.length = 1 then some (.raised "too short") else none

/-- A service that counts the writes, and answers the second of those under way first. -/
def shortRefused : Client Nat where
  write _ part n := (Client.answer (refuseShort part), n + 1)
  create _ _ n := (.ok (), n)
  list _ _ n := (.ok [], n)
  close n := (.ok (), n)
  pick n := if n = 0 then 1 else 0

def gaugeOf (type : String) : TimeSeries where
  metricType := type
  labels := .empty
  resource := ⟨.text "global", .empty⟩
  kind := .gauge
  valueType := .double
  point := ⟨⟨60000, none⟩, .ofDouble 1⟩

def pairsConfig : ExportConfig := { batchSize := .int 2, maxWorkers := .int 3 }

/-- Three partitions, the last of which is refused; the second is written first. -/
theorem publish_accounts_short :
    let records := ["a", "b", "c", "d", "e"].map gaugeOf
    shortRefused.JudgesBy pairsConfig.projectName refuseShort ∧
    (∃ result parts, Published pairsConfig shortRefused refuseShort 2 3 records 0 result parts ∧
      result = ⟨2, 1, 4, 1, ["too short"]⟩) ∧
    (publish pairsConfig shortRefused.journaling records (0, [])).2.1.2.map
        (·.map (·.metricType)) = [["c", "d"], ["a", "b"], ["e"]] := by
  have hjudges : shortRefused.JudgesBy pairsConfig.projectName refuseShort := fun _ _ => rfl
  have hbatch : pairsConfig.batchSize.number? = some (.int 2) := rfl
  have hworkers : pairsConfig.maxWorkers.number? = some (.int 3) := rfl
  obtain ⟨result, parts, h⟩ := publish_accounts hbatch (by decide) hworkers (by decide) hjudges
    (["a", "b", "c", "d", "e"].map gaugeOf) 0
  exact ⟨hjudges, ⟨result, parts, h, (Except.ok.inj h.returned).symm⟩, rfl⟩

end Publisher
end Telemetry

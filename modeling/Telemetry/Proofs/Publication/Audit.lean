import Telemetry.Proofs.Publication.Publisher

/-!
The replies to the writes of a publication, and results that agree with them, for a service that
may fail any write whatever is in it.

Proved here:

* `audited_of_outcomes`: a result agrees with the replies if its outcomes are those of the
  replies, in any order;
* `Pool.Sent.audited`: so does the result of workers, however many there are and in whatever order
  they finish;
* `publish_audited`: and hence that of every publication.
-/

namespace Telemetry

variable {σ : Type}

/-- The replies to the writes of a service, oldest first. -/
abbrev Replies := List (Except Fault Unit)

/-- The client with a note of the reply to every write. -/
def Client.auditing (client : Client σ) : Client (σ × Replies) :=
  { client.within Prod.fst (fun s t => (s, t.2)) with
    write := fun project part t =>
      let reply := client.write project part t.1
      (reply.1, reply.2, t.2 ++ [reply.1]) }

/-- The number of failures among replies. -/
def Replies.failures (replies : Replies) : Nat := replies.countP fun reply => !reply.isOk

theorem Replies.failures_answers (outcomes : List (Option Fault)) :
    failures (outcomes.map Client.answer) = outcomes.countP (·.isSome) := by
  rw [failures, List.countP_map]
  refine List.countP_congr fun outcome _ => ?_
  cases outcome <;> simp [Client.answer, Except.isOk, Except.toBool]

/-- A result agrees with the replies that were noted meanwhile.

- `total_eq`: it accounts for all records.
- `failed_eq`: its failures are those among the replies. -/
structure PublishResult.Audited (records : List TimeSeries) (before after : Replies)
    (result : PublishResult) : Prop where
  total_eq : result.recordsSent + result.recordsDropped = records.length
  failed_eq : ∃ replies, after = before ++ replies ∧ result.partitionsFailed = replies.failures

/-- The outcomes of partitions agree with the replies, whatever the order in which these came. -/
theorem PublishResult.audited_of_outcomes {parts : List (List TimeSeries)}
    {outcomes answered : List (Option Fault)} (hperm : outcomes.Perm answered)
    (hlength : outcomes.length = parts.length) (before : Replies) :
    (tally (parts.zip outcomes)).Audited parts.flatten before
      (before ++ answered.map Client.answer) := by
  refine ⟨?_, _, rfl, ?_⟩
  · rw [total_tally, List.map_fst_zip (Nat.le_of_eq hlength.symm)]
  · rw [failed_tally, Replies.failures_answers, ← hperm.countP_eq]
    conv_rhs => rw [← List.map_snd_zip (Nat.le_of_eq hlength), List.countP_map]
    rfl

namespace Publisher

theorem send_auditing (client : Client σ) (project : String) (part : List TimeSeries)
    (t : σ × Replies) :
    (send client.auditing project part t).2.2 =
      t.2 ++ [Client.answer (send client.auditing project part t).1] := by
  rw [send, Client.auditing]
  dsimp only
  cases client.write project part t.1 with
  | mk reply after => cases reply <;> rfl

namespace Pool

variable {client : Client σ} {project : String} {workers : Nat}

/-- Every reply that was noted since is filed, in the same order. -/
def Noted (before : Replies) (x : Pool × σ × Replies) : Prop :=
  x.2.2 = before ++ (x.1.answered.map (·.2)).map Client.answer

theorem Step.noted {before : Replies} {x y : Pool × σ × Replies}
    (hstep : Step client.auditing project workers x y) (h : Noted before x) : Noted before y := by
  cases hstep with
  | take => exact h
  | @finish waiting underWay after p answered t =>
    have hbefore : t.2 = _ := h
    rw [Noted, send_auditing, hbefore, List.append_assoc, List.map_append, List.map_append]
    rfl

theorem Run.noted {before : Replies} {x y : Pool × σ × Replies}
    (hrun : Run client.auditing project workers x y) (h : Noted before x) : Noted before y := by
  induction hrun with
  | refl => exact h
  | tail _ hstep ih => exact hstep.noted ih

/-- **Audit of workers.** -/
theorem Sent.audited {parts : List (List TimeSeries)} {t after : σ × Replies} {pool : Pool}
    (hsent : Sent client.auditing project workers parts t pool after) :
    (PublishResult.tally (parts.zip (pool.outcomes parts.length))).Audited parts.flatten t.2
      after.2 := by
  have hnoted : Noted t.2 (pool, after) := hsent.1.noted (List.append_nil _).symm
  rw [show after.2 = _ from hnoted]
  exact PublishResult.audited_of_outcomes hsent.outcomes_perm hsent.length_outcomes t.2

end Pool

/-- **Audit of a publication.** Whatever fails, there is a result, and it agrees with the
replies. -/
theorem publish_audited {config : ExportConfig} {batch workers : Int}
    (hbatch : config.batchSize.number? = some (.int batch)) (hpos : 1 ≤ batch)
    (hworkers : config.maxWorkers.number? = some (.int workers)) (client : Client σ)
    (records : List TimeSeries) (t : σ × Replies) :
    ∃ result, (publish config client.auditing records t).1 = .ok result ∧
      result.Audited records t.2 (publish config client.auditing records t).2.1.2 := by
  have hparts := partitions_eq hbatch hpos hworkers records
  obtain ⟨pool, after, hsent, hpublish⟩ := publish_sent hparts client.auditing t
  have haudited := hsent.audited
  rw [flatten_of_partitions hparts] at haudited
  rw [hpublish]
  exact ⟨_, rfl, haudited⟩

end Publisher
end Telemetry

import Mathlib.Data.List.Perm.Basic
import Mathlib.Logic.Relation
import Telemetry.Publication.Publisher

/-!
Workers that send partitions at once, as steps: one of them takes the first partition that waits,
or a partition under way is written.

Proved here:

* `Sent.outcomes_perm`, `Sent.numbers`: in whatever order they are written, each partition gets one
  outcome;
* `Sent.outcomes_eq`: it is the verdict on the partition, if the service judges by that alone;
* `Sent.attempted`: each partition is written once;
* `exists_finished`: the workers never get stuck;
* `sendPooled_sent`, `sendAll_sent`: partitions that are sent by a pool, and those that are sent in
  turn, are sent by such steps.
-/

namespace Telemetry

variable {σ : Type}

/-- The client with a note of every write. -/
def Client.journaling (client : Client σ) : Client (σ × List (List TimeSeries)) :=
  { client.within Prod.fst (fun s t => (s, t.2)) with
    write := fun project part t =>
      let reply := client.write project part t.1
      (reply.1, reply.2, t.2 ++ [part]) }

/-- What a write answers: success, or a fault. -/
def Client.answer : Option Fault → Except Fault Unit
  | none => .ok ()
  | some fault => .error fault

/-- Whether a write succeeds depends on its partition alone. -/
def Client.JudgesBy (client : Client σ) (project : String)
    (verdict : List TimeSeries → Option Fault) : Prop :=
  ∀ part s, (client.write project part s).1 = answer (verdict part)

namespace Publisher

/-! ## One write -/

theorem send_verdict {client : Client σ} {project : String}
    {verdict : List TimeSeries → Option Fault} (h : client.JudgesBy project verdict)
    (part : List TimeSeries) (s : σ) : (send client project part s).1 = verdict part := by
  have hanswer := h part s
  rw [send]
  cases hwrite : client.write project part s with
  | mk reply after =>
    rw [hwrite] at hanswer
    cases hverdict : verdict part with
    | none => rw [hverdict] at hanswer; rw [show reply = .ok () from hanswer]
    | some fault => rw [hverdict] at hanswer; rw [show reply = .error fault from hanswer]

theorem send_journaling (client : Client σ) (project : String)
    (part : List TimeSeries) (t : σ × List (List TimeSeries)) :
    (send client.journaling project part t).2.2 = t.2 ++ [part] := by
  rw [send, Client.journaling]
  dsimp only
  split <;> next h => rw [← congrArg (·.2.2) h]

namespace Pool

variable (client : Client σ) (project : String) (workers : Nat)

/-! ## Steps of workers -/

/-- A worker takes the first partition that waits, if not all workers are busy; or one of the
partitions under way is written, and its outcome filed. -/
inductive Step : Pool × σ → Pool × σ → Prop
  | take {p : Numbered} {waiting underWay : List Numbered}
    {answered : List (Nat × Option Fault)} {s : σ} (free : underWay.length < workers) :
    Step (⟨p :: waiting, underWay, answered⟩, s) (⟨waiting, underWay ++ [p], answered⟩, s)
  | finish {waiting before after : List Numbered} {p : Numbered}
    {answered : List (Nat × Option Fault)} {s : σ} :
    Step (⟨waiting, before ++ p :: after, answered⟩, s)
      (⟨waiting, before ++ after, answered ++ [(p.1, (send client project p.2 s).1)]⟩,
        (send client project p.2 s).2)

/-- The workers come from one state to another. -/
abbrev Run : Pool × σ → Pool × σ → Prop := Relation.ReflTransGen (Step client project workers)

/-- The workers have nothing left to do. -/
def Finished (pool : Pool) : Prop := pool.waiting = [] ∧ pool.underWay = []

/-- The workers have sent all partitions. -/
def Sent (parts : List (List TimeSeries)) (s : σ) (pool : Pool) (after : σ) : Prop :=
  Run client project workers (ofParts parts, s) (pool, after) ∧ pool.Finished

/-- The partitions that are still to be written. -/
def unwritten (pool : Pool) : List Numbered := pool.underWay ++ pool.waiting

variable {client project workers}

theorem Sent.mono {more : Nat} (h : workers ≤ more) {parts : List (List TimeSeries)} {s after : σ}
    {pool : Pool} (hsent : Sent client project workers parts s pool after) :
    Sent client project more parts s pool after := by
  refine ⟨Relation.ReflTransGen.mono (fun x y hstep => ?_) _ _ hsent.1, hsent.2⟩
  cases hstep with
  | take free => exact .take (Nat.lt_of_lt_of_le free h)
  | finish => exact .finish

/-! ## Outcomes -/

section Answers

variable {γ : Type} (said : Nat × Option Fault → γ) (promised : Numbered → γ)
  (h : ∀ p s, said (p.1, (send client project p.2 s).1) = promised p)

include h

/-- What is said of the outcomes that are there and promised of those to come stays the same. -/
theorem Step.foreseen {x y : Pool × σ} (hstep : Step client project workers x y) :
    (y.1.answered.map said ++ y.1.unwritten.map promised).Perm
      (x.1.answered.map said ++ x.1.unwritten.map promised) := by
  cases hstep with
  | take => simp [unwritten]
  | @finish waiting before after p answered s =>
    simp only [unwritten, List.append_assoc, List.cons_append, List.map_append, List.map_cons,
      List.map_nil, List.nil_append, h]
    exact (List.perm_middle.symm).append_left _

theorem Run.foreseen {x y : Pool × σ} (hrun : Run client project workers x y) :
    (y.1.answered.map said ++ y.1.unwritten.map promised).Perm
      (x.1.answered.map said ++ x.1.unwritten.map promised) := by
  induction hrun with
  | refl => exact List.Perm.refl _
  | tail _ hstep ih => exact (hstep.foreseen said promised h).trans ih

theorem Sent.foreseen {parts : List (List TimeSeries)} {s after : σ} {pool : Pool}
    (hsent : Sent client project workers parts s pool after) :
    (pool.answered.map said).Perm (((List.range parts.length).zip parts).map promised) := by
  obtain ⟨hrun, hwaiting, hunderWay⟩ := hsent
  simpa [unwritten, hwaiting, hunderWay, ofParts] using hrun.foreseen said promised h

end Answers

section Sent

variable {parts : List (List TimeSeries)} {s after : σ} {pool : Pool}
  (hsent : Sent client project workers parts s pool after)

include hsent

theorem Sent.numbers : (pool.answered.map (·.1)).Perm (List.range parts.length) := by
  have hnumbers := hsent.foreseen (·.1) (·.1) fun _ _ => rfl
  rwa [List.map_fst_zip (by simp)] at hnumbers

/-- The outcomes in the order of the partitions are those in the order in which they came. -/
theorem Sent.outcomes_perm : (pool.outcomes parts.length).Perm (pool.answered.map (·.2)) := by
  have hnumbers := hsent.numbers
  have hnodup : (pool.answered.map (·.1)).Nodup := hnumbers.nodup_iff.mpr List.nodup_range
  have hget : ∀ a ∈ pool.answered, Pairs.get? a.1 pool.answered = some a.2 :=
    fun a ha => (Pairs.get?_eq_some_iff hnodup a.1 a.2).mpr ha
  have hanswers : (pool.answered.map (·.1)).filterMap (fun i => Pairs.get? i pool.answered) =
      pool.answered.map (·.2) := by
    rw [List.filterMap_map, ← List.filterMap_eq_map]
    exact List.filterMap_congr hget
  rw [outcomes, ← hanswers]
  exact (hnumbers.symm).filterMap _

theorem Sent.length_outcomes : (pool.outcomes parts.length).length = parts.length := by
  rw [hsent.outcomes_perm.length_eq, List.length_map, ← List.length_map (·.1),
    hsent.numbers.length_eq, List.length_range]

end Sent

theorem filterMap_getElem?_range {α : Type} (items : List α) :
    (List.range items.length).filterMap (fun i => items[i]?) = items := by
  induction items with
  | nil => rfl
  | cons item rest ih =>
    rw [List.length_cons, List.range_succ_eq_map]
    simp [List.filterMap_map, ih]

/-- Outcomes that are filed under their numbers, in any order. -/
theorem outcomes_of_perm {pool : Pool} {expected : List (Option Fault)}
    (h : pool.answered.Perm ((List.range expected.length).zip expected)) :
    pool.outcomes expected.length = expected := by
  have hnodup : (pool.answered.map (·.1)).Nodup := by
    rw [(h.map _).nodup_iff, List.map_fst_zip (by simp)]
    exact List.nodup_range
  have hget : ∀ i ∈ List.range expected.length,
      Pairs.get? i pool.answered = expected[i]? := by
    intro i hi
    have hlt : i < expected.length := List.mem_range.mp hi
    rw [List.getElem?_eq_getElem hlt, Pairs.get?_eq_some_iff hnodup, h.mem_iff]
    refine List.mem_iff_getElem.mpr ⟨i, by simpa using hlt, ?_⟩
    simp
  rw [outcomes, List.filterMap_congr hget, filterMap_getElem?_range]

/-- **Order of sending.** If the service judges a partition by what is in it, the outcomes are the
verdicts on the partitions in their order. -/
theorem Sent.outcomes_eq {verdict : List TimeSeries → Option Fault}
    (h : client.JudgesBy project verdict) {parts : List (List TimeSeries)} {s after : σ}
    {pool : Pool} (hsent : Sent client project workers parts s pool after) :
    pool.outcomes parts.length = parts.map verdict := by
  have hforeseen := hsent.foreseen id (fun p => (p.1, verdict p.2))
    fun p s => by rw [id_eq, send_verdict h]
  rw [List.map_id] at hforeseen
  have hperm : pool.answered.Perm
      ((List.range (parts.map verdict).length).zip (parts.map verdict)) := by
    rwa [List.length_map, List.zip_map_right]
  simpa using outcomes_of_perm hperm

/-! ## Attempts -/

/-- With a journal, a step writes what is not left to write after it. -/
theorem Step.attempted {x y : Pool × σ × List (List TimeSeries)}
    (hstep : Step client.journaling project workers x y) :
    ∃ written, y.2.2 = x.2.2 ++ written ∧
      (written ++ y.1.unwritten.map (·.2)).Perm (x.1.unwritten.map (·.2)) := by
  cases hstep with
  | take => exact ⟨[], (List.append_nil _).symm, by simp [unwritten]⟩
  | @finish waiting before after p answered t =>
    refine ⟨[p.2], send_journaling client project p.2 t, ?_⟩
    simp only [unwritten, List.append_assoc, List.cons_append, List.map_append, List.map_cons,
      List.nil_append]
    exact List.perm_middle.symm

theorem Run.attempted {x y : Pool × σ × List (List TimeSeries)}
    (hrun : Run client.journaling project workers x y) :
    ∃ written, y.2.2 = x.2.2 ++ written ∧
      (written ++ y.1.unwritten.map (·.2)).Perm (x.1.unwritten.map (·.2)) := by
  induction hrun with
  | refl => exact ⟨[], (List.append_nil _).symm, List.Perm.refl _⟩
  | tail _ hstep ih =>
    obtain ⟨before, hbefore, hperm⟩ := ih
    obtain ⟨last, hlast, hperm'⟩ := hstep.attempted
    refine ⟨before ++ last, by rw [hlast, hbefore, List.append_assoc], ?_⟩
    rw [List.append_assoc]
    exact (hperm'.append_left before).trans hperm

/-- **Attempts.** Each partition is written once, in whatever order. -/
theorem Sent.attempted {parts : List (List TimeSeries)} {t after : σ × List (List TimeSeries)}
    {pool : Pool} (hsent : Sent client.journaling project workers parts t pool after) :
    ∃ written, after.2 = t.2 ++ written ∧ written.Perm parts := by
  obtain ⟨hrun, hwaiting, hunderWay⟩ := hsent
  obtain ⟨written, hjournal, hperm⟩ := hrun.attempted
  refine ⟨written, hjournal, ?_⟩
  simpa [unwritten, hwaiting, hunderWay, ofParts, List.map_snd_zip] using hperm

/-! ## Progress -/

theorem exists_run_underWay (waiting underWay : List Numbered)
    (answered : List (Nat × Option Fault)) (s : σ) :
    ∃ answered' s', Run client project workers (⟨waiting, underWay, answered⟩, s)
      (⟨waiting, [], answered'⟩, s') := by
  induction underWay generalizing answered s with
  | nil => exact ⟨answered, s, .refl⟩
  | cons p rest ih =>
    obtain ⟨answered', s', hrest⟩ := ih _ _
    have hfinish := @Step.finish σ client project workers waiting [] rest p answered s
    exact ⟨answered', s', .head hfinish hrest⟩

theorem exists_run_waiting (hworkers : 0 < workers) (waiting : List Numbered)
    (answered : List (Nat × Option Fault)) (s : σ) :
    ∃ pool after, Run client project workers (⟨waiting, [], answered⟩, s) (pool, after) ∧
      pool.Finished := by
  induction waiting generalizing answered s with
  | nil => exact ⟨_, s, .refl, rfl, rfl⟩
  | cons p rest ih =>
    obtain ⟨pool, after, hrest, hfinished⟩ := ih _ _
    have hfinish := @Step.finish σ client project workers rest [] [] p answered s
    exact ⟨pool, after, .head (.take hworkers) (.head hfinish hrest), hfinished⟩

theorem exists_finished (hworkers : 0 < workers) (x : Pool × σ) :
    ∃ pool after, Run client project workers x (pool, after) ∧ pool.Finished := by
  obtain ⟨⟨waiting, underWay, answered⟩, s⟩ := x
  obtain ⟨answered', s', hfirst⟩ :=
    @exists_run_underWay σ client project workers waiting underWay answered s
  obtain ⟨pool, after, hrest, hfinished⟩ := exists_run_waiting hworkers waiting answered' s'
  exact ⟨pool, after, hfirst.trans hrest, hfinished⟩

/-! ## The pool of a publication -/

/-- Workers that are idle can take as many partitions as there are of them. -/
theorem run_take {k : Nat} {waiting underWay : List Numbered}
    {answered : List (Nat × Option Fault)} {s : σ} (hidle : k ≤ workers - underWay.length) :
    Run client project workers (⟨waiting, underWay, answered⟩, s)
      (⟨waiting.drop k, underWay ++ waiting.take k, answered⟩, s) := by
  induction k generalizing waiting underWay with
  | zero => simpa using .refl
  | succ k ih =>
    cases waiting with
    | nil => simpa using .refl
    | cons p rest =>
      have hrest := @ih rest (underWay ++ [p])
        (by rw [List.length_append, List.length_singleton]; omega)
      rw [List.append_assoc, List.singleton_append] at hrest
      exact .head (.take (by omega)) hrest

theorem run_fill (pool : Pool) (s : σ) :
    Run client project workers (pool, s) (pool.fill workers, s) :=
  run_take (Nat.le_refl _)

theorem run_answer (pool : Pool) (s : σ) :
    Run client project workers (pool, s) (answer client project pool s) := by
  obtain ⟨waiting, underWay, answered⟩ := pool
  rw [answer]
  generalize client.pick s % underWay.length = place
  dsimp only
  cases hplace : underWay[place]? with
  | none => exact .refl
  | some p =>
    obtain ⟨hlt, rfl⟩ := List.getElem?_eq_some_iff.mp hplace
    have hsplit :
        underWay = underWay.take place ++ underWay[place] :: underWay.drop (place + 1) := by
      rw [List.getElem_cons_drop, List.take_append_drop]
    have hfinish := @Step.finish σ client project workers waiting (underWay.take place)
      (underWay.drop (place + 1)) underWay[place] answered s
    rw [← hsplit, ← List.eraseIdx_eq_take_drop_succ] at hfinish
    exact .single hfinish

theorem run_answerAll (n : Nat) (pool : Pool) (s : σ) :
    Run client project workers (pool, s) (answerAll client project workers n pool s) := by
  induction n generalizing pool s with
  | zero => exact .refl
  | succ n ih => exact ((run_fill pool s).trans (run_answer _ s)).trans (ih _ _)

theorem unwritten_fill (pool : Pool) : (pool.fill workers).unwritten = pool.unwritten := by
  simp [fill, unwritten]

/-- Someone is at work as long as there is something to write. -/
theorem underWay_fill_ne_nil (hworkers : 0 < workers) {pool : Pool} (h : pool.unwritten ≠ []) :
    (pool.fill workers).underWay ≠ [] := by
  obtain ⟨waiting, underWay, answered⟩ := pool
  intro hnone
  obtain ⟨rfl, htaken⟩ := List.append_eq_nil_iff.mp hnone
  rcases List.take_eq_nil_iff.mp htaken with hidle | rfl
  · simp only [List.length_nil] at hidle
    omega
  · exact h rfl

/-- An answer takes one partition off what there is to write. -/
theorem length_unwritten_answer {pool : Pool} (h : pool.underWay ≠ []) (s : σ) :
    (answer client project pool s).1.unwritten.length + 1 = pool.unwritten.length := by
  obtain ⟨waiting, underWay, answered⟩ := pool
  have hpos : 0 < underWay.length := List.length_pos_iff.mpr h
  have hplace := Nat.mod_lt (client.pick s) hpos
  rw [answer]
  dsimp only
  rw [List.getElem?_eq_getElem hplace]
  simp only [unwritten, List.length_append, List.length_eraseIdx_of_lt hplace]
  omega

theorem finished_answerAll (hworkers : 0 < workers) {n : Nat} {pool : Pool}
    (hn : pool.unwritten.length = n) (s : σ) :
    (answerAll client project workers n pool s).1.Finished := by
  induction n generalizing pool s with
  | zero =>
    obtain ⟨hunderWay, hwaiting⟩ := List.append_eq_nil_iff.mp (List.length_eq_zero_iff.mp hn)
    exact ⟨hwaiting, hunderWay⟩
  | succ n ih =>
    have hne : pool.unwritten ≠ [] := List.length_pos_iff.mp (by omega)
    have hlength := @length_unwritten_answer σ client project _
      (underWay_fill_ne_nil hworkers hne) s
    rw [unwritten_fill, hn] at hlength
    exact ih (Nat.succ.inj hlength) _

/-- **A pool sends all partitions.** -/
theorem sendPooled_sent (hworkers : 0 < workers) (parts : List (List TimeSeries)) (s : σ) :
    Sent client project workers parts s (sendPooled client project workers parts s).1
      (sendPooled client project workers parts s).2 :=
  ⟨run_answerAll _ _ _, finished_answerAll hworkers (by simp [unwritten, ofParts]) s⟩

/-! ## One partition after another -/

theorem length_sendAll (client : Client σ) (project : String) (parts : List (List TimeSeries))
    (s : σ) : (sendAll client project parts s).1.length = parts.length := by
  induction parts generalizing s with
  | nil => rfl
  | cons part rest ih => rw [sendAll, List.length_cons, List.length_cons, ih]

/-- A single worker writes what it takes before it takes more. -/
theorem run_sendAll {numbers : List Nat} {parts : List (List TimeSeries)}
    (hlength : numbers.length = parts.length) (answered : List (Nat × Option Fault)) (s : σ) :
    Run client project 1 (⟨numbers.zip parts, [], answered⟩, s)
      (⟨[], [], answered ++ numbers.zip (sendAll client project parts s).1⟩,
        (sendAll client project parts s).2) := by
  induction parts generalizing numbers answered s with
  | nil => simpa [sendAll] using .refl
  | cons part rest ih =>
    cases numbers with
    | nil => cases hlength
    | cons number numbers =>
      have hrest := ih (Nat.succ.inj hlength)
        (answered ++ [(number, (send client project part s).1)]) (send client project part s).2
      have hfinish := @Step.finish σ client project 1 (numbers.zip rest) [] [] (number, part)
        answered s
      rw [List.append_assoc] at hrest
      exact .head (.take Nat.one_pos) (.head hfinish hrest)

/-- **Partitions in turn** are sent by one worker. -/
theorem sendAll_sent (parts : List (List TimeSeries)) (s : σ) :
    ∃ pool, Sent client project 1 parts s pool (sendAll client project parts s).2 ∧
      pool.outcomes parts.length = (sendAll client project parts s).1 ∧
      pool.answered.map (·.2) = (sendAll client project parts s).1 := by
  have hlength := length_sendAll client project parts s
  refine ⟨_, ⟨run_sendAll List.length_range [] s, rfl, rfl⟩, ?_, ?_⟩
  · rw [List.nil_append, ← hlength]
    exact outcomes_of_perm (List.Perm.refl _)
  · exact List.map_snd_zip (Nat.le_of_eq (by rw [hlength, List.length_range]))

end Pool
end Publisher
end Telemetry

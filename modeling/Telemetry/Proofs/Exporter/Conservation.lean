import Telemetry.Proofs.Backend.CacheRuns
import Telemetry.Proofs.Exporter.Runs
import Telemetry.Proofs.Meter.RegistryRuns

/-!
Increments of a counter over whole runs of the exporter that publishes it.

Proved here:

* `SeriesBuilder.counter_built_or_failed`: a counter that is among the snapshots has one record,
  with its count, unless its lookup fails;
* `Metered.publish_counter`: hence a cycle reports the count and starts it again, or loses it;
* `Metered.balance_apply`: no action repeats an increment, or loses one in another way;
* `increments_accounted`: hence no run does;
* `increments_lost`: but a listing with a type that is no key does lose increments.
-/

namespace Telemetry

variable {σ : Type}

/-- A connection that notes its writes lists what the service lists. -/
theorem Client.listsKeys_journaling_iff (client : Client σ) :
    client.journaling.ListsKeys ↔ client.ListsKeys := by
  constructor
  · intro h project filter s listing s' hlist
    exact h project filter (s, []) listing (s', []) (by
      simp [Client.journaling, Client.within, callWithin, hlist])
  · intro h project filter t listing t' hlist
    obtain ⟨hreply, -⟩ := Prod.mk.inj hlist
    exact h project filter t.1 listing _ (Prod.ext hreply rfl)

/-! ## Counts -/

/-- What is added to a counter. -/
def SessionCall.amount? (handle : MeterHandle) : SessionCall → Option Binary64
  | .call other (.increment amount) => if other = handle then some amount else none
  | _ => none

/-- Numbers that are these whole numbers. -/
def Whole : List Binary64 → List Nat → Prop := List.Forall₂ fun x n => x.eqInt n = true

/-- Numbers that are whole and come to a sum. -/
def SumsTo (xs : List Binary64) (total : Nat) : Prop := ∃ ns, Whole xs ns ∧ ns.sum = total

theorem SumsTo.nil : SumsTo [] 0 := ⟨[], .nil, rfl⟩

theorem SumsTo.singleton {x : Binary64} {n : Nat} (h : x.eqInt n = true) : SumsTo [x] n :=
  ⟨[n], .cons h .nil, List.sum_singleton⟩

theorem SumsTo.append {xs ys : List Binary64} {m n : Nat} (h : SumsTo xs m) (h' : SumsTo ys n) :
    SumsTo (xs ++ ys) (m + n) := by
  obtain ⟨ms, hms, rfl⟩ := h
  obtain ⟨ns, hns, rfl⟩ := h'
  exact ⟨ms ++ ns, List.rel_append hms hns, List.sum_append⟩

/-- **Counts.** Without a snapshot of it, a counter comes to what it was and what is added. -/
theorem MeterSession.count_apply {s : MeterSession} (h : s.registry.Kept) {handle : MeterHandle}
    {id : MeterId} {v : Binary64} (hm : s.registry.meter? handle = some ⟨id, .counter v⟩)
    {n : Nat} (hv : v.eqInt n = true) {call : SessionCall}
    (hspares : call ≠ .call handle .snapshot) {added : List Nat}
    (hadded : Whole (call.amount? handle).toList added) (hle : n + added.sum ≤ 2 ^ 53) :
    ∃ count : Binary64, (call.apply s).registry.meter? handle = some ⟨id, .counter count⟩ ∧
      count.eqInt (n + added.sum : Nat) = true := by
  have hafter := (apply_spec h call).2 handle _ hm
  cases call with
  | call other c =>
    by_cases hother : other = handle
    · subst hother
      simp only [if_true, MeterCall.apply_counter] at hafter
      cases c with
      | increment amount =>
        simp only [SessionCall.amount?, if_true, Option.toList_some] at hadded
        obtain _ | ⟨hamount, hnil⟩ := hadded
        cases hnil
        dsimp only at hafter
        rw [if_neg (by simp [Binary64.not_isNegative_of_eqInt hamount])] at hafter
        refine ⟨_, hafter, ?_⟩
        rw [List.sum_singleton] at hle ⊢
        rw [Int.natCast_add]
        refine Binary64.eqInt_add hv hamount ?_
        rw [← Int.natCast_add, Int.natAbs_natCast, twoTo_eq_pow]
        exact hle
      | snapshot => exact absurd rfl hspares
      | _ =>
        cases hadded
        exact ⟨v, hafter, hv⟩
    · simp only [hother, if_false] at hafter
      have hnone : (SessionCall.call other c).amount? handle = none := by
        cases c with
        | increment amount => exact if_neg hother
        | _ => rfl
      rw [hnone] at hadded
      cases hadded
      exact ⟨v, hafter, hv⟩
  | _ =>
    cases hadded
    exact ⟨v, hafter, hv⟩

/-! ## Records of a counter -/

namespace SeriesBuilder

section Counter

variable (b : SeriesBuilder σ) {id : MeterId} {name : String} (hname : b.naming.name id = .ok name)
  {v : Binary64} (hv : v.isFinite = true)

include hname hv

theorem plan_counter :
    ∃ series, b.plan ⟨id, .counter v⟩ = .ok [series] ∧ series.value = .ofDouble v := by
  have hentry : ∃ series, b.planEntry id name (SeriesTable.cumulative none v) = some series ∧
      series.value = .ofDouble v := by
    simp [planEntry, SeriesTable.cumulative, SeriesValue.typed?, SeriesValue.isFinite, hv]
  obtain ⟨series, hseries, hvalue⟩ := hentry
  have hrow : b.planRow id (SeriesTable.cumulative none v) = .ok (some series) := by
    rw [planRow, SeriesTable.cumulative, if_neg Bool.false_ne_true, hname]
    exact congrArg Except.ok hseries
  refine ⟨series, ?_, hvalue⟩
  simp [plan, agenda, SeriesTable.ofReading, agendaOf, hrow]

/-- A counter that is among the snapshots has one record, with its count; or its lookup failed, and
it has none. -/
theorem counter_built_or_failed {snapshots : List Snapshot}
    (hone : snapshots.filter (·.id = id) = [⟨id, .counter v⟩]) (st : BuildState σ) :
    (∃ r, ((b.blocks snapshots st).filter (·.1.id = id)).flatMap (·.2) = [r] ∧
        r.point.value = .ofDouble v ∧ (b.failures snapshots st).filter (·.1.id = id) = []) ∨
      ∃ shape, ((b.blocks snapshots st).filter (·.1.id = id)).flatMap (·.2) = [] ∧
        (b.failures snapshots st).filter (·.1.id = id) = [(⟨id, .counter v⟩, .notKey shape)] ∧
        ¬ b.client.ListsKeys := by
  obtain ⟨series, hplan, hvalue⟩ := b.plan_counter hname hv
  obtain ⟨before, ⟨rs, hbuild, hblocks, hfailures⟩ | ⟨fault, hbuild, hblocks, hfailures⟩⟩ :=
    b.built_or_failed hone st
  · rw [b.build_of_plan hplan] at hbuild
    have hfinished := b.records_finished hbuild
    rw [hblocks, List.flatMap_singleton]
    obtain _ | ⟨⟨kind, rfl⟩, _ | _⟩ := hfinished
    exact Or.inl ⟨_, rfl, hvalue, hfailures⟩
  · rw [b.build_of_plan hplan] at hbuild
    obtain ⟨⟨shape, rfl⟩, hkeys⟩ := b.records_fault (Prod.ext hbuild rfl)
    exact Or.inr ⟨shape, by rw [hblocks]; rfl, hfailures, hkeys⟩

end Counter

end SeriesBuilder

namespace Exporter

/-! ## Exporters of a registry -/

/-- A setup that publishes a registry under its own names, with whole numbers for the sizes of
requests and of the pool. -/
structure Metering (setup : ExporterSetup σ MeterSession) : Prop where
  source_eq : setup.source = MeterSession.snapshot
  naming_eq : setup.naming = .identity
  batch : ∃ n : Int, setup.config.batchSize.number? = some (.int n) ∧ 1 ≤ n
  workers : ∃ n : Int, setup.config.maxWorkers.number? = some (.int n) ∧ 1 ≤ n

/-- The exporters that there are: new ones, over a registry that was used before, and what
becomes of them. -/
inductive Reached (setup : ExporterSetup σ MeterSession) :
    Exporter (σ × Journal) MeterSession → Prop
  | created {client : Option (Client σ)} {now : Int} {s : σ} (calls : List SessionCall)
    {e : Exporter (σ × Journal) MeterSession}
    (h : create setup.journaling (client.map (·.journaling)) now (s, [])
      (MeterSession.applyAll calls {}) = .ok e) : Reached setup e
  | step {e : Exporter (σ × Journal) MeterSession} (h : Reached setup e)
    (action : Action σ SessionCall) : Reached setup (action.apply SessionCall.apply e)

/-- The connections that an exporter has and makes list keys as types. -/
structure ListsKeys (setup : ExporterSetup σ MeterSession)
    (e : Exporter (σ × Journal) MeterSession) : Prop where
  connects : ∀ s client, (setup.connect s).1 = .ok client → client.ListsKeys
  connected : ∀ client, e.client = some client → client.ListsKeys

/-- What every exporter of a registry keeps, with what is known of its connections. -/
structure Metered (setup : ExporterSetup σ MeterSession) (Q : Client σ → Prop)
    (e : Exporter (σ × Journal) MeterSession) : Prop where
  connects : ∀ s client, (setup.connect s).1 = .ok client → Q client
  connected : Connected setup Q e
  kept : e.source.registry.Kept

/-- Only a cycle and an operation on a meter reach the meters. -/
theorem source_apply {ρ ω : Type} (act : ω → ρ → ρ) (action : Action σ ω)
    (e : Exporter (σ × Journal) ρ) :
    (action.apply act e).source =
      match action with
      | .publish => if e.client.isSome then (e.setup.source e.source).2 else e.source
      | .meters op => act op e.source
      | _ => e.source := by
  cases action with
  | start =>
    have hstarted := start_spec e
    simp only [Action.apply]
    generalize e.start.1 = after at hstarted ⊢
    cases hstarted <;> rfl
  | stop =>
    obtain ⟨backend, hstop, -⟩ := stop_spec e
    simp only [Action.apply, hstop]
  | publish =>
    cases hclient : e.client with
    | none => simp [Action.apply, publish_none hclient]
    | some client =>
      obtain ⟨cache, lastResult, hpublish⟩ := publish_spec hclient
      simp [Action.apply, hpublish]
  | advance millis seconds =>
    simp only [Action.apply, advance]
    cases Clock.advance e.now millis seconds <;> rfl
  | service change => rfl
  | workers change => rfl
  | meters op => rfl

section Metered

variable {setup : ExporterSetup σ MeterSession} (hsetup : Metering setup) {Q : Client σ → Prop}
  {e : Exporter (σ × Journal) MeterSession}

include hsetup

theorem Metered.source_eq (h : Metered setup Q e) : e.setup.source = MeterSession.snapshot := by
  rw [h.connected.setup_eq]
  exact hsetup.source_eq

theorem Metered.apply (h : Metered setup Q e) (action : Action σ SessionCall) :
    Metered setup Q (action.apply SessionCall.apply e) := by
  refine ⟨h.connects, (h.connected.apply h.connects _ action).1, ?_⟩
  rw [source_apply]
  cases action with
  | publish =>
    dsimp only
    split
    · obtain ⟨r', hsnapshot, hkept, -⟩ := h.kept.snapshot_spec e.source.now
      rw [h.source_eq hsetup, MeterSession.snapshot, hsnapshot]
      exact hkept
    · exact h.kept
  | meters op => exact (MeterSession.apply_spec h.kept op).1
  | _ => exact h.kept

theorem Reached.metered (h : Reached setup e) : Metered setup (fun _ => True) e := by
  induction h with
  | @created client now s calls e hcreate =>
    refine ⟨fun _ _ _ => trivial, connected_create (fun _ _ => trivial) hcreate, ?_⟩
    obtain ⟨schedule, rfl⟩ := create_spec hcreate
    exact MeterSession.kept_applyAll Registry.kept_empty calls
  | step _ action ih => exact ih.apply hsetup action

omit hsetup in
theorem Metered.of_listsKeys (h : Metered setup Q e) (hkeys : ListsKeys setup e) :
    Metered setup Client.ListsKeys e := by
  refine ⟨hkeys.connects, ⟨h.connected.setup_eq, fun noting hnoting => ?_⟩, h.kept⟩
  obtain ⟨client, -, rfl⟩ := h.connected.client_eq noting hnoting
  exact ⟨client, client.listsKeys_journaling_iff.mp (hkeys.connected _ hnoting), rfl⟩

end Metered

/-! ## One action -/

/-- The records of a cycle that were built from the snapshots of a meter. -/
def Cycle.recordsOf (id : MeterId) (cycle : Cycle) : List TimeSeries :=
  (cycle.blocks.filter (·.1.id = id)).flatMap (·.2)

/-- The snapshots of a meter that failed in a cycle. -/
def Cycle.lostOf (id : MeterId) (cycle : Cycle) : List (Snapshot × Fault) :=
  cycle.failures.filter (·.1.id = id)

/-- What an action adds to a counter. -/
def Action.amount? (handle : MeterHandle) : Action σ SessionCall → Option Binary64
  | .meters call => call.amount? handle
  | _ => none

/-- The increments of a counter in a run. -/
def amounts (handle : MeterHandle) (actions : List (Action σ SessionCall)) : List Binary64 :=
  actions.filterMap (·.amount? handle)

/-- The count of a counter, the values of its records in some cycles and those of its snapshots that
failed come to a total. -/
def Balance (handle : MeterHandle) (id : MeterId) (cs : List Cycle)
    (after : Exporter (σ × Journal) MeterSession) (total : Nat) : Prop :=
  ∃ (count : Binary64) (values missed : List Binary64) (left reported lost : Nat),
    after.source.registry.meter? handle = some ⟨id, .counter count⟩ ∧
    count.eqInt left = true ∧
    (cs.flatMap (·.recordsOf id)).map (·.point.value) = values.map .ofDouble ∧
    SumsTo values reported ∧
    (cs.flatMap (·.lostOf id)).map (·.1.reading) = missed.map .counter ∧
    SumsTo missed lost ∧
    left + reported + lost = total

/-- Every snapshot of a meter that fails in some cycles does so because a connection listed a type
that is no key. -/
def Excused (Q : Client σ → Prop) (id : MeterId) (cs : List Cycle) : Prop :=
  ∀ c ∈ cs, ∀ f ∈ c.lostOf id,
    (∃ shape, f.2 = .notKey shape) ∧ ∃ client, Q client ∧ ¬ client.ListsKeys

theorem Balance.of_count {handle : MeterHandle} {id : MeterId}
    {after : Exporter (σ × Journal) MeterSession} {v : Binary64} {n : Nat}
    (hm : after.source.registry.meter? handle = some ⟨id, .counter v⟩) (hv : v.eqInt n = true) :
    Balance handle id [] after n :=
  ⟨v, [], [], n, 0, 0, hm, hv, rfl, .nil, rfl, .nil, rfl⟩

/-- A run after another one goes on from the count that is left. -/
theorem Balance.append {handle : MeterHandle} {id : MeterId} {cs later : List Cycle}
    {middle after : Exporter (σ × Journal) MeterSession} {total added : Nat}
    (h : Balance handle id cs middle total)
    (hlater : ∀ (count : Binary64) (left : Nat),
      middle.source.registry.meter? handle = some ⟨id, .counter count⟩ →
      count.eqInt left = true → left ≤ total → Balance handle id later after (left + added)) :
    Balance handle id (cs ++ later) after (total + added) := by
  obtain ⟨count, values, missed, left, reported, lost, hm, hcount, hvalues, hreported, hmissed,
    hlost, hsum⟩ := h
  obtain ⟨count', values', missed', left', reported', lost', hm', hcount', hvalues', hreported',
    hmissed', hlost', hsum'⟩ := hlater count left hm hcount (by omega)
  refine ⟨count', values ++ values', missed ++ missed', left', reported + reported', lost + lost',
    hm', hcount', ?_, hreported.append hreported', ?_, hlost.append hlost', by omega⟩
  · rw [List.flatMap_append, List.map_append, hvalues, hvalues', List.map_append]
  · rw [List.flatMap_append, List.map_append, hmissed, hmissed', List.map_append]

section Balance

variable {setup : ExporterSetup σ MeterSession} (hsetup : Metering setup) {Q : Client σ → Prop}
  {e : Exporter (σ × Journal) MeterSession} (h : Metered setup Q e)
  {handle : MeterHandle} (hmem : handle ∈ e.source.registry.handles) {id : MeterId}
  {v : Binary64} (hm : e.source.registry.meter? handle = some ⟨id, .counter v⟩)

include hsetup h hmem hm

/-- A cycle reports the count of a registered counter or loses it, and starts it again at zero. -/
theorem Metered.publish_counter (hv : v.isFinite = true) (client : Client σ) :
    ((∃ r, (e.cycleOf client.journaling).recordsOf id = [r] ∧ r.point.value = .ofDouble v ∧
          (e.cycleOf client.journaling).lostOf id = []) ∨
        ∃ shape, (e.cycleOf client.journaling).recordsOf id = [] ∧
          (e.cycleOf client.journaling).lostOf id = [(⟨id, .counter v⟩, .notKey shape)] ∧
          ¬ client.ListsKeys) ∧
      (e.setup.source e.source).2.registry.meter? handle = some ⟨id, .counter .zero⟩ := by
  obtain ⟨snapshots, after, hsnapshot, -, hone, hafter⟩ :=
    MeterSession.snapshot_counter h.kept hmem hm
  rw [Cycle.recordsOf, Cycle.lostOf, cycleOf, h.source_eq hsetup, hsnapshot]
  have hname : (e.builder client.journaling).naming.name id = .ok id.name := by
    rw [builder, h.connected.setup_eq]
    show setup.naming.name id = _
    rw [hsetup.naming_eq]
    rfl
  have hcounter := (e.builder client.journaling).counter_built_or_failed hname hv hone e.buildState
  rw [show (e.builder client.journaling).client = client.journaling from rfl,
    client.listsKeys_journaling_iff] at hcounter
  exact ⟨hcounter, hafter⟩

/-- A publication reports the count of the counter or loses it; without a connection it leaves the
count alone. -/
theorem Metered.balance_publish {n : Nat} (hv : v.eqInt n = true) :
    let action : Action σ SessionCall := .publish
    Balance handle id (action.cycle? e).toList (action.apply SessionCall.apply e) n ∧
      Excused Q id (action.cycle? e).toList := by
  intro action
  have hsource := source_apply SessionCall.apply action e
  cases hclient : e.client with
  | none =>
    rw [Action.cycle?, hclient]
    refine ⟨.of_count ?_ hv, List.forall_mem_nil _⟩
    rw [hsource, hclient]
    exact hm
  | some client =>
    obtain ⟨client, hQ, rfl⟩ := h.connected.client_eq client hclient
    obtain ⟨hcycle, hafter⟩ :=
      h.publish_counter hsetup hmem hm (Binary64.eqInt_iff.mp hv).1 client
    have hcount : (action.apply SessionCall.apply e).source.registry.meter? handle =
        some ⟨id, .counter .zero⟩ := by
      rw [hsource, hclient]
      exact hafter
    have hone : (action.cycle? e).toList = [e.cycleOf client.journaling] := by
      rw [Action.cycle?, hclient]
      rfl
    rw [hone]
    rcases hcycle with ⟨r, hrecords, hvalue, hlost⟩ | ⟨shape, hrecords, hlost, hkeys⟩
    · refine ⟨⟨.zero, [v], [], 0, n, 0, hcount, Binary64.eqInt_zero, ?_, .singleton hv, ?_, .nil,
        by simp⟩, ?_⟩
      · simp [hrecords, hvalue]
      · simp [hlost]
      · simp [Excused, hlost]
    · refine ⟨⟨.zero, [], [v], 0, 0, n, hcount, Binary64.eqInt_zero, ?_, .nil, ?_, .singleton hv,
        by simp⟩, ?_⟩
      · simp [hrecords]
      · simp [hlost]
      · simpa [Excused, hlost] using ⟨client, hQ, hkeys⟩

/-- **One action.** No increment is reported twice, or lost but for a lookup that fails. -/
theorem Metered.balance_apply {n : Nat} (hv : v.eqInt n = true) {action : Action σ SessionCall}
    (hspares : action ≠ .meters (.call handle .snapshot)) {added : List Nat}
    (hadded : Whole (action.amount? handle).toList added) (hle : n + added.sum ≤ 2 ^ 53) :
    Balance handle id (action.cycle? e).toList (action.apply SessionCall.apply e)
        (n + added.sum) ∧
      Excused Q id (action.cycle? e).toList := by
  cases action with
  | publish =>
    cases hadded
    exact h.balance_publish hsetup hmem hm hv
  | meters call =>
    obtain ⟨count, hafter, hcount⟩ := MeterSession.count_apply h.kept hm hv
      (fun heq => hspares (congrArg _ heq)) hadded hle
    exact ⟨.of_count hafter hcount, List.forall_mem_nil _⟩
  | _ =>
    cases hadded
    refine ⟨.of_count ?_ hv, List.forall_mem_nil _⟩
    rw [source_apply]
    exact hm

end Balance

/-! ## Whole runs -/

/-- A meter is registered all through a run. -/
def Stays (handle : MeterHandle) :
    List (Action σ SessionCall) → Exporter (σ × Journal) MeterSession → Prop
  | [], e => handle ∈ e.source.registry.handles
  | action :: rest, e =>
    handle ∈ e.source.registry.handles ∧ Stays handle rest (action.apply SessionCall.apply e)

instance decidableStays (handle : MeterHandle) : (actions : List (Action σ SessionCall)) →
    (e : Exporter (σ × Journal) MeterSession) → Decidable (Stays handle actions e)
  | [], e => inferInstanceAs (Decidable (handle ∈ e.source.registry.handles))
  | _ :: rest, _ => @instDecidableAnd _ _ _ (decidableStays handle rest _)

theorem amounts_cons (handle : MeterHandle) (action : Action σ SessionCall)
    (rest : List (Action σ SessionCall)) :
    amounts handle (action :: rest) = (action.amount? handle).toList ++ amounts handle rest := by
  rw [amounts, List.filterMap_cons]
  cases action.amount? handle <;> rfl

/-- **Runs.** What was counted and what is added is reported, still counted, or lost with an
excuse. -/
theorem Metered.balance_runAll {setup : ExporterSetup σ MeterSession} (hsetup : Metering setup)
    {Q : Client σ → Prop} {handle : MeterHandle} {id : MeterId}
    {actions : List (Action σ SessionCall)} {e : Exporter (σ × Journal) MeterSession}
    (h : Metered setup Q e) (hstays : Stays handle actions e)
    (hspares : ∀ action ∈ actions, action ≠ .meters (.call handle .snapshot)) {v : Binary64}
    (hm : e.source.registry.meter? handle = some ⟨id, .counter v⟩) {n : Nat}
    (hv : v.eqInt n = true) {added : List Nat} (hadded : Whole (amounts handle actions) added)
    (hle : n + added.sum ≤ 2 ^ 53) :
    Balance handle id (cycles SessionCall.apply actions e)
        (runAll SessionCall.apply actions e) (n + added.sum) ∧
      Excused Q id (cycles SessionCall.apply actions e) := by
  induction actions generalizing e v n added with
  | nil =>
    cases hadded
    exact ⟨.of_count hm hv, nofun⟩
  | cons action rest ih =>
    rw [List.forall_mem_cons] at hspares
    rw [amounts_cons] at hadded
    obtain ⟨hmem, hrest⟩ := hstays
    -- the amounts of the action, and those of the rest
    have hfirst : Whole (action.amount? handle).toList
        (added.take (action.amount? handle).toList.length) :=
      (List.forall₂_take_append _ _ _ hadded.flip).flip
    have hlater : Whole (amounts handle rest)
        (added.drop (action.amount? handle).toList.length) :=
      (List.forall₂_drop_append _ _ _ hadded.flip).flip
    rw [← List.sum_take_add_sum_drop added (action.amount? handle).toList.length,
      ← Nat.add_assoc] at hle ⊢
    obtain ⟨hbalance, hexcused⟩ :=
      h.balance_apply hsetup hmem hm hv hspares.1 hfirst (by omega)
    have hgo := fun (count : Binary64) (left : Nat) hcount hleft
        (hbound : left ≤ n + (added.take (action.amount? handle).toList.length).sum) =>
      ih (h.apply hsetup action) hrest hspares.2 (v := count) (n := left) hcount hleft hlater
        (by omega)
    refine ⟨hbalance.append fun count left hcount hleft hbound =>
      (hgo count left hcount hleft hbound).1, ?_⟩
    obtain ⟨count, _, _, left, _, _, hcount, hleft, -, -, -, -, hsum⟩ := hbalance
    exact List.forall_mem_append.mpr ⟨hexcused, (hgo count left hcount hleft (by omega)).2⟩

/-- The service is handed the records of the cycles of a run, each once. -/
theorem Metered.handed_runAll {setup : ExporterSetup σ MeterSession} (hsetup : Metering setup)
    {Q : Client σ → Prop} {e : Exporter (σ × Journal) MeterSession} (h : Metered setup Q e)
    (actions : List (Action σ SessionCall)) :
    (runAll SessionCall.apply actions e).backend.2.flatten.Perm
      (e.backend.2.flatten ++ (cycles SessionCall.apply actions e).flatMap (·.records)) := by
  obtain ⟨batch, hbatch, hpos⟩ := hsetup.batch
  obtain ⟨workers, hworkers, -⟩ := hsetup.workers
  have hwritten : ∀ c ∈ cycles SessionCall.apply actions e, c.written.flatten.Perm c.records :=
    h.connected.forall_cycles h.connects
      (fun e client hconnected hclient => by
        have hconfig := hconnected.config_eq
        exact flatten_written hclient (hconfig ▸ hbatch) hpos (hconfig ▸ hworkers)) _ actions
  have hflatten : ((cycles SessionCall.apply actions e).flatMap (·.written)).flatten =
      (cycles SessionCall.apply actions e).flatMap (·.written.flatten) := by
    rw [List.flatMap_def, List.flatMap_def, List.flatten_flatten, List.map_map]
    rfl
  rw [journal_run h.connected h.connects, List.flatten_append, hflatten]
  exact (List.Perm.flatMap_left _ hwritten).append_left _

/-- What becomes of the increments of a counter in a run with these cycles.

- `handed`: the service is handed the records of the cycles, each once, in whatever order.
- `balance`: those that were built from the counter, its count and what is lost come to the total.
- `excused`: a loss comes of a listed type that is no key.
- `lossless`: with connections that list keys there is none.
- `idle`: without a connection a publication changes nothing. -/
structure Accounted (setup : ExporterSetup σ MeterSession) (handle : MeterHandle) (id : MeterId)
    (cs : List Cycle) (e after : Exporter (σ × Journal) MeterSession) (total : Nat) : Prop where
  handed : after.backend.2.flatten.Perm (e.backend.2.flatten ++ cs.flatMap (·.records))
  balance : Balance handle id cs after total
  excused : ∀ c ∈ cs, ∀ f ∈ c.lostOf id, ∃ shape, f.2 = .notKey shape
  lossless : ListsKeys setup e → ∀ c ∈ cs, c.lostOf id = []
  idle : after.client = none → after.publish.2.1 = after

/-- **Increments are accounted for**, whatever an exporter, its service and its meters go through
while the counter stays registered and is snapshot by the exporter only. A new counter starts
at zero. -/
theorem increments_accounted {setup : ExporterSetup σ MeterSession} (hsetup : Metering setup)
    {e : Exporter (σ × Journal) MeterSession} (hreached : Reached setup e)
    {handle : MeterHandle} {id : MeterId} {start : Binary64}
    (hm : e.source.registry.meter? handle = some ⟨id, .counter start⟩) {counted : Nat}
    (hstart : start.eqInt counted = true) {actions : List (Action σ SessionCall)}
    (hstays : Stays handle actions e)
    (hspares : ∀ action ∈ actions, action ≠ .meters (.call handle .snapshot))
    {added : List Nat} (hadded : Whole (amounts handle actions) added)
    (hle : counted + added.sum ≤ 2 ^ 53) :
    Accounted setup handle id (cycles SessionCall.apply actions e) e
      (runAll SessionCall.apply actions e) (counted + added.sum) := by
  have h := hreached.metered hsetup
  obtain ⟨hbalance, hexcused⟩ := h.balance_runAll hsetup hstays hspares hm hstart hadded hle
  refine ⟨h.handed_runAll hsetup actions, hbalance, fun c hc f hf => (hexcused c hc f hf).1,
    fun hkeys c hc => ?_, publish_none⟩
  obtain ⟨-, hkept⟩ :=
    (h.of_listsKeys hkeys).balance_runAll hsetup hstays hspares hm hstart hadded hle
  refine List.eq_nil_iff_forall_not_mem.mpr fun f hf => ?_
  obtain ⟨-, client, hclient, hnot⟩ := hkept c hc f hf
  exact hnot hclient

/-- A registry that is published to a service in memory, in requests of two records. -/
def meteredSetup : ExporterSetup MemoryBackend MeterSession where
  config :=
    { projectId := .text "p", stepSeconds := .int 60, timeoutSeconds := .int 30
      batchSize := .int 2 }
  connect s := (.ok MemoryBackend.client, s)
  source := MeterSession.snapshot

theorem metering_meteredSetup : Metering meteredSetup where
  source_eq := rfl
  naming_eq := rfl
  batch := ⟨2, rfl, by decide⟩
  workers := ⟨_, rfl, by decide⟩

/-- A counter and a gauge. -/
def meteredCalls : List SessionCall :=
  [.register "hits" .empty none .counter, .register "load" .empty none (.gauge none)]

/-- An increment of the counter. -/
def hit (n : Nat) : Action σ SessionCall := .meters (.call 0 (.increment (.ofInt n)))

/-- A cycle whose write fails, a publication without a connection, and after a restart one more
cycle and an increment that is not reported yet. -/
def interruptedRun : List (Action MemoryBackend SessionCall) :=
  [hit 2, .meters (.call 1 (.set .zero)), hit 3,
    .service (fun s => { s with refusesWrites := true }), .publish, hit 4, .stop, .publish,
    .start, .publish, hit 1]

theorem increments_accounted_interrupted :
    ∃ e, create meteredSetup.journaling (some MemoryBackend.client.journaling) 10 ({}, [])
        (MeterSession.applyAll meteredCalls {}) = .ok e ∧
      Accounted meteredSetup 0 (.create "hits" .empty none .counter)
        (cycles SessionCall.apply interruptedRun e) e
        (runAll SessionCall.apply interruptedRun e) (0 + [2, 3, 4, 1].sum) ∧
      ((cycles SessionCall.apply interruptedRun e).map fun c =>
        (c.records.length, c.recordsOf (.create "hits" .empty none .counter)
          |>.map (·.point.value))) =
        [(2, [.ofDouble (.ofInt 5)]), (2, [.ofDouble (.ofInt 4)])] := by
  have hcreate : create meteredSetup.journaling
      ((some MemoryBackend.client).map (·.journaling)) 10 ({}, [])
      (MeterSession.applyAll meteredCalls {}) = .ok _ := rfl
  have hadded : Whole (amounts 0 interruptedRun) [2, 3, 4, 1] := by
    show Whole [.ofInt 2, .ofInt 3, .ofInt 4, .ofInt 1] [2, 3, 4, 1]
    simp only [Whole, List.forall₂_cons, List.forall₂_nil_left_iff]
    decide +kernel
  have hspares : ∀ action ∈ interruptedRun, action ≠ .meters (.call 0 .snapshot) := by
    simp [interruptedRun, hit]
  refine ⟨_, hcreate, ?_, by decide +kernel⟩
  exact increments_accounted metering_meteredSetup (.created meteredCalls hcreate) rfl
    Binary64.eqInt_zero (by decide +kernel) hspares hadded (by decide)

/-- A service that accepts every call and lists a list as a type. -/
def oddService : Client Unit where
  write _ _ s := (.ok (), s)
  create _ _ s := (.ok (), s)
  list _ _ s := (.ok [(.list [.text "t"], .gauge)], s)
  close s := (.ok (), s)

def oddSetup : ExporterSetup Unit MeterSession where
  config := meteredSetup.config
  connect s := (.ok oddService, s)
  source := MeterSession.snapshot

/-- **Increments can be lost.** A cycle in which the service lists a type that is no key starts the
counter again, but hands over nothing. -/
theorem increments_lost :
    ∃ e, create oddSetup.journaling (some oddService.journaling) 10 ((), [])
        (MeterSession.applyAll meteredCalls {}) = .ok e ∧
      Stays 0 [hit 5, .publish] e ∧
      let after := runAll SessionCall.apply [hit 5, .publish] e
      after.backend.2 = [] ∧
      (cycles SessionCall.apply [hit 5, .publish] e).flatMap (·.records) = [] ∧
      after.source.registry.meter? 0 =
        some ⟨.create "hits" .empty none .counter, .counter .zero⟩ := by
  refine ⟨_, rfl, by decide +kernel, by decide +kernel, by decide +kernel, ?_⟩
  have hkept : (MeterSession.applyAll meteredCalls {}).registry.Kept :=
    MeterSession.kept_applyAll Registry.kept_empty meteredCalls
  have hadded : Whole [.ofInt 5] [5] := List.forall₂_cons.mpr ⟨by decide +kernel, .nil⟩
  obtain ⟨five, hfive, -⟩ := MeterSession.count_apply hkept
    (rfl : (MeterSession.applyAll meteredCalls {}).registry.meter? 0 = _) Binary64.eqInt_zero
    (nofun : SessionCall.call 0 (.increment (.ofInt 5)) ≠ .call 0 .snapshot) hadded (by decide)
  obtain ⟨snapshots, after, hsnapshot, -, -, hafter⟩ :=
    MeterSession.snapshot_counter (MeterSession.apply_spec hkept _).1 (by decide +kernel) hfive
  rw [runAll, List.foldl_cons, List.foldl_cons, List.foldl_nil, source_apply]
  exact (congrArg (·.2.registry.meter? 0) hsnapshot).trans hafter

end Exporter
end Telemetry

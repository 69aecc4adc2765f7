import Mathlib.Data.List.Nodup
import Telemetry.Meter.Session
import Telemetry.Proofs.Meter.StepHistogram

/-!
A registry over whole runs of its use.

Proved here:

* `MeterCall.follows`: no use of a meter makes its snapshots fail;
* `MeterSession.apply_spec`: every registered meter stays under its own key, and a use changes
  no meter but the one that it calls;
* `Registry.snapshotAll_spec`: all registered meters are snapshot, each once;
* `Registry.Kept.pairwise_key`: no two registered meters have the same name and tags;
* `MeterSession.snapshot_counter`: the count of a registered counter is reported by one
  snapshot, and starts again at zero;
* `MeterSession.forall_made`: what holds of every new meter and is kept by every use holds of all
  meters that a run has made.
-/

namespace Telemetry

/-! ## Meters whose snapshots cannot fail -/

/-- A histogram that is sound and keeps the usual number of samples. -/
structure StepHistogram.Ready (h : StepHistogram) : Prop where
  sound : h.Sound
  samples_le : h.samples.length ≤ h.window
  window_eq : h.window = defaultWindow

namespace StepHistogram.Ready

variable {h : StepHistogram} (hready : h.Ready)

include hready

theorem exists_take : ∃ histogram, h.take = (.ok histogram, h.reset) := by
  have hlen : h.samples.length ≤ twoTo 53 := by
    refine Nat.le_trans hready.samples_le ?_
    rw [hready.window_eq]
    decide
  obtain ⟨histogram, hview, -, -⟩ := hready.sound.exists_view hlen
  exact ⟨histogram, by rw [take, hview]⟩

theorem reset : h.reset.Ready :=
  ⟨hready.sound.reset, Nat.zero_le _, hready.window_eq⟩

theorem recordNonNegative (v : Binary64) : (h.recordNonNegative v).2.Ready := by
  rw [StepHistogram.recordNonNegative]
  split
  · exact hready
  · exact ⟨hready.sound.record v, (length_samples_record v).2 hready.samples_le,
      hready.window_eq⟩

end StepHistogram.Ready

theorem StepHistogram.ready_create {boundaries fractions : List Binary64} {h : StepHistogram}
    (hcreate : create boundaries fractions defaultWindow = .ok h) : h.Ready := by
  obtain ⟨-, hfresh⟩ := create_eq hcreate
  refine ⟨hfresh.sound_recordAll [], ?_, ?_⟩
  · exact Nat.le_trans (length_samples_recordAll hfresh []) (Nat.zero_le _)
  · unfold create at hcreate
    dsimp only at hcreate
    split at hcreate
    · cases hcreate
    · cases hcreate
      rfl

/-- The snapshots of a meter in this state cannot fail. -/
def MeterState.Ready : MeterState → Prop
  | .timer h => h.Ready
  | .summary h => h.Ready
  | _ => True

theorem Meter.id_snapshot {m : Meter} {now : Binary64} {s : Snapshot}
    (hs : (m.snapshot now).1 = .ok s) : s.id = m.id := by
  obtain ⟨reading, -, rfl⟩ := Fault.exists_of_map_eq_ok hs
  rfl

theorem Meter.snapshot_ready {m : Meter} (hready : m.state.Ready) (now : Binary64) :
    (∃ s, (m.snapshot now).1 = .ok s ∧ s.id = m.id) ∧ (m.snapshot now).2.state.Ready := by
  obtain ⟨id, state⟩ := m
  cases state with
  | timer h =>
    obtain ⟨histogram, htake⟩ := StepHistogram.Ready.exists_take hready
    simp only [snapshot, readState, htake]
    exact ⟨⟨_, rfl, rfl⟩, StepHistogram.Ready.reset hready⟩
  | summary h =>
    obtain ⟨histogram, htake⟩ := StepHistogram.Ready.exists_take hready
    simp only [snapshot, readState, htake]
    exact ⟨⟨_, rfl, rfl⟩, StepHistogram.Ready.reset hready⟩
  | functionTimer count total lastCount lastTotal =>
    simp only [snapshot, readState]
    split
    · exact ⟨⟨_, rfl, rfl⟩, trivial⟩
    · exact ⟨⟨_, rfl, rfl⟩, trivial⟩
  | _ => exact ⟨⟨_, rfl, rfl⟩, trivial⟩

/-! ## Uses of a meter -/

/-- An operation on a meter. -/
inductive MeterCall where
  | increment (amount : Binary64)
  | set (x : Binary64)
  | add (x : Binary64)
  | subtract (x : Binary64)
  | read
  | record (x : Binary64)
  | time (start stop : Binary64)
  | startTask
  | stopTask (task : Nat)
  | snapshot

/-- A meter after an operation at a monotonic reading. One that fails leaves it as it is. -/
def MeterCall.apply (now : Binary64) (m : Meter) : MeterCall → Meter
  | .increment amount => (m.increment amount).toOption.getD m
  | .set x => (m.set x).toOption.getD m
  | .add x => (m.add x).toOption.getD m
  | .subtract x => (m.subtract x).toOption.getD m
  | .read => (m.value.map (·.2)).toOption.getD m
  | .record x => (m.record x).2
  | .time start stop => (m.time start stop (.ok ())).2
  | .startTask => ((m.startTask now).map (·.2)).toOption.getD m
  | .stopTask task => ((m.stopTask task now).map (·.2)).toOption.getD m
  | .snapshot => (m.snapshot now).2

/-- What every operation keeps: the identity, and that snapshots cannot fail. -/
def Meter.Follows (m after : Meter) : Prop :=
  after.id = m.id ∧ (m.state.Ready → after.state.Ready)

theorem Meter.Follows.refl (m : Meter) : m.Follows m := ⟨rfl, fun h => h⟩

theorem Meter.follows_modifyGauge (operation : String) (f : Binary64 → Binary64) (m : Meter) :
    m.Follows ((m.modifyGauge operation f).toOption.getD m) := by
  obtain ⟨id, state⟩ := m
  cases state <;> exact ⟨rfl, fun h => h⟩

theorem Meter.follows_record (x : Binary64) (m : Meter) : m.Follows (m.record x).2 := by
  obtain ⟨id, state⟩ := m
  cases state with
  | timer h => exact ⟨rfl, fun hready => StepHistogram.Ready.recordNonNegative hready x⟩
  | summary h => exact ⟨rfl, fun hready => StepHistogram.Ready.recordNonNegative hready x⟩
  | _ => exact Follows.refl _

/-- **Operations** keep a meter's identity and never make its snapshots fail. -/
theorem MeterCall.follows (now : Binary64) (m : Meter) (call : MeterCall) :
    m.Follows (call.apply now m) := by
  cases call with
  | increment amount =>
    obtain ⟨id, state⟩ := m
    cases state with
    | counter value =>
      simp only [apply, Meter.increment]
      split <;> exact ⟨rfl, fun h => h⟩
    | _ => exact .refl _
  | set x => exact m.follows_modifyGauge _ _
  | add x => exact m.follows_modifyGauge _ _
  | subtract x => exact m.follows_modifyGauge _ _
  | read =>
    obtain ⟨id, state⟩ := m
    cases state <;> exact ⟨rfl, fun h => h⟩
  | record x => exact m.follows_record x
  | time start stop =>
    obtain ⟨id, state⟩ := m
    cases state with
    | timer h => exact ⟨rfl, fun hready => StepHistogram.Ready.recordNonNegative hready _⟩
    | _ => exact .refl _
  | startTask =>
    obtain ⟨id, state⟩ := m
    cases state <;> exact ⟨rfl, fun h => h⟩
  | stopTask task =>
    obtain ⟨id, state⟩ := m
    cases state <;> exact ⟨rfl, fun h => h⟩
  | snapshot => exact ⟨rfl, fun hready => (Meter.snapshot_ready hready now).2⟩

/-- Of all operations, only an increment and a snapshot change a counter. -/
theorem MeterCall.apply_counter (now : Binary64) (id : MeterId) (v : Binary64)
    (call : MeterCall) :
    call.apply now ⟨id, .counter v⟩ =
      match call with
      | .increment amount => ⟨id, .counter (if amount.isNegative then v else v + amount)⟩
      | .snapshot => ⟨id, .counter .zero⟩
      | _ => ⟨id, .counter v⟩ := by
  cases call with
  | increment amount =>
    simp only [apply, Meter.increment]
    split <;> rfl
  | _ => rfl

/-! ## Uses of a session -/

/-- What a meter is made as. -/
inductive MeterPlan where
  | counter
  | gauge (feed : Option (Feed (Option Binary64)))
  | timeGauge (feed : Option (Feed (Option Binary64)))
  | functionCounter (feed : Feed (Option Binary64))
  | timer (boundaries fractions : List Binary64)
  | summary (boundaries fractions : List Binary64)
  | longTaskTimer
  | functionTimer (count total : Feed (Option Binary64))
  | custom (feed : Feed (Option (List Measurement)))

namespace MeterPlan

def type : MeterPlan → MeterType
  | .counter => .counter
  | .gauge _ => .gauge
  | .timeGauge _ => .timeGauge
  | .functionCounter _ => .functionCounter
  | .timer .. => .timer
  | .summary .. => .distributionSummary
  | .longTaskTimer => .longTaskTimer
  | .functionTimer .. => .functionTimer
  | .custom _ => .other

/-- The first state of a new meter, unless its percentiles are refused. -/
def state : MeterPlan → Except Fault MeterState
  | .counter => .ok (.counter .zero)
  | .gauge feed => .ok (.gauge { feed })
  | .timeGauge feed => .ok (.timeGauge { feed })
  | .functionCounter feed => .ok (.functionCounter feed .zero)
  | .timer boundaries fractions =>
    (StepHistogram.create boundaries fractions StepHistogram.defaultWindow).map .timer
  | .summary boundaries fractions =>
    (StepHistogram.create boundaries fractions StepHistogram.defaultWindow).map .summary
  | .longTaskTimer => .ok (.longTaskTimer {})
  | .functionTimer count total => .ok (.functionTimer count total .zero .zero)
  | .custom feed => .ok (.custom feed)

theorem ready_state {plan : MeterPlan} {state : MeterState} (h : plan.state = .ok state) :
    state.Ready := by
  cases plan with
  | timer boundaries fractions =>
    obtain ⟨histogram, hcreate, rfl⟩ := Fault.exists_of_map_eq_ok h
    exact StepHistogram.ready_create hcreate
  | summary boundaries fractions =>
    obtain ⟨histogram, hcreate, rfl⟩ := Fault.exists_of_map_eq_ok h
    exact StepHistogram.ready_create hcreate
  | _ =>
    cases h
    trivial

end MeterPlan

/-- What is done with a session. -/
inductive SessionCall where
  | register (name : String) (tags : OrderedMap String String) (description : Option String)
    (plan : MeterPlan)
  | call (handle : MeterHandle) (call : MeterCall)
  | remove (handle : MeterHandle)
  | clear
  | wait (now : Binary64)

/-- A session after something was done with it. What fails leaves it as it is. -/
def SessionCall.apply : SessionCall → MeterSession → MeterSession
  | .register name tags description plan, s =>
    match s.registry.register name tags description plan.type plan.state with
    | .ok (_, registry) => { s with registry }
    | .error _ => s
  | .call handle c, s =>
    match s.registry.meter? handle with
    | some m => s.put handle (c.apply s.now m)
    | none => s
  | .remove handle, s => { s with registry := (s.registry.remove handle).2 }
  | .clear, s => { s with registry := s.registry.clear }
  | .wait now, s => { s with now }

/-- A session after things were done with it in turn. -/
def MeterSession.applyAll (calls : List SessionCall) (s : MeterSession) : MeterSession :=
  calls.foldl (fun s call => call.apply s) s

namespace Registry

/-- Every registered meter is under its own key, and no snapshot of a meter can fail. -/
structure Kept (r : Registry) : Prop where
  keyed : ∀ k handle, r.registered.get? k = some handle →
    ∃ m, r.meter? handle = some m ∧ key m.id = k
  ready : ∀ handle m, r.meter? handle = some m → m.state.Ready

theorem kept_empty : empty.Kept where
  keyed := nofun
  ready handle m h := by simp [empty, meter?] at h

/-- Registering makes at most one meter, in the state asked for, and registers it under its
key. -/
theorem register_spec {r r' : Registry} {name : String} {tags : OrderedMap String String}
    {description : Option String} {type : MeterType} {make : Except Fault MeterState}
    {handle : MeterHandle}
    (h : r.register name tags description type make = .ok (handle, r')) :
    r' = r ∨ ∃ state, make = .ok state ∧
      r' = ⟨r.made ++ [⟨.create name tags description type, state⟩],
        r.registered.insert (key (.create name tags description type)) r.made.length⟩ := by
  unfold register at h
  dsimp only at h
  split at h
  · split at h
    · cases h
      exact Or.inl rfl
    · cases h
  · obtain ⟨state, hstate, h⟩ := Fault.exists_of_bind_eq_ok h
    cases h
    exact Or.inr ⟨state, hstate, rfl⟩

theorem meter?_put {r : Registry} {handle : MeterHandle} {m : Meter}
    (hm : r.meter? handle = some m) (m' : Meter) (other : MeterHandle) :
    (r.put handle m').meter? other = if other = handle then some m' else r.meter? other := by
  have hlt : handle < r.made.length := (List.getElem?_eq_some_iff.mp hm).1
  simp only [meter?, put, List.getElem?_set, hlt, if_true, eq_comm]

theorem mem_handles_iff {r : Registry} {handle : MeterHandle} :
    handle ∈ r.handles ↔ ∃ k, r.registered.get? k = some handle := by
  simp only [handles, OrderedMap.values, List.mem_map, OrderedMap.get?_eq_some_iff]
  constructor
  · rintro ⟨⟨k, _⟩, hentry, rfl⟩
    exact ⟨k, hentry⟩
  · rintro ⟨k, hentry⟩
    exact ⟨(k, handle), hentry, rfl⟩

section Kept

variable {r : Registry} (h : r.Kept)

include h

theorem Kept.put {handle : MeterHandle} {m m' : Meter} (hm : r.meter? handle = some m)
    (hfollows : m.Follows m') : (r.put handle m').Kept := by
  refine ⟨fun k other hk => ?_, fun other m'' hother => ?_⟩
  · obtain ⟨m'', hm'', hkey⟩ := h.keyed k other hk
    rw [meter?_put hm]
    split
    · next heq =>
      rw [heq, hm] at hm''
      cases hm''
      exact ⟨m', rfl, by rw [hfollows.1]; exact hkey⟩
    · exact ⟨m'', hm'', hkey⟩
  · rw [meter?_put hm] at hother
    split at hother
    · cases hother
      exact hfollows.2 (h.ready _ _ hm)
    · exact h.ready _ _ hother

/-- Registering makes at most one meter, under its key, and changes none. -/
theorem Kept.register {name : String} {tags : OrderedMap String String}
    {description : Option String} {plan : MeterPlan} {handle : MeterHandle} {r' : Registry}
    (hregister : r.register name tags description plan.type plan.state = .ok (handle, r')) :
    r'.Kept ∧ ∀ other m, r.meter? other = some m → r'.meter? other = some m := by
  rcases register_spec hregister with rfl | ⟨state, hstate, rfl⟩
  · exact ⟨h, fun _ _ hm => hm⟩
  · have hold : ∀ other m, r.meter? other = some m → (r.made ++ [⟨MeterId.create name tags
        description plan.type, state⟩])[other]? = some m := by
      intro other m hm
      rw [List.getElem?_append_left (List.getElem?_eq_some_iff.mp hm).1]
      exact hm
    refine ⟨⟨fun k other hk => ?_, fun other m hm => ?_⟩, hold⟩
    · rw [OrderedMap.get?_insert] at hk
      split at hk
      · next heq =>
        cases hk
        exact ⟨_, List.getElem?_concat_length, heq.symm⟩
      · obtain ⟨m, hm, hkey⟩ := h.keyed k other hk
        exact ⟨m, hold other m hm, hkey⟩
    · rcases List.mem_append.mp (List.mem_of_getElem? hm) with hmem | hmem
      · obtain ⟨i, hi⟩ := List.mem_iff_getElem?.mp hmem
        exact h.ready i m hi
      · rw [List.mem_singleton.mp hmem]
        exact MeterPlan.ready_state hstate

theorem Kept.remove (handle : MeterHandle) : (r.remove handle).2.Kept := by
  rw [Registry.remove]
  split
  · refine ⟨fun k other hk => ?_, h.ready⟩
    rw [OrderedMap.get?_erase] at hk
    split at hk
    · cases hk
    · exact h.keyed k other hk
  · exact h

theorem Kept.clear : r.clear.Kept where
  keyed _ _ hk := by cases hk
  ready := h.ready

theorem Kept.nodup_handles : r.handles.Nodup := by
  refine List.Nodup.map_on ?_ (List.Nodup.of_map _ r.registered.nodup)
  rintro ⟨k, handle⟩ hentry ⟨k', handle'⟩ hentry' heq
  obtain rfl : handle = handle' := heq
  obtain ⟨m, hm, hkey⟩ := h.keyed k handle ((OrderedMap.get?_eq_some_iff _ _ _).mpr hentry)
  obtain ⟨m', hm', hkey'⟩ := h.keyed k' handle ((OrderedMap.get?_eq_some_iff _ _ _).mpr hentry')
  rw [hm] at hm'
  cases hm'
  rw [← hkey, ← hkey']

/-- Registered meters of the same name and tags are the same. -/
theorem Kept.handle_inj {handle other : MeterHandle} {m m' : Meter} (hmem : handle ∈ r.handles)
    (hother : other ∈ r.handles) (hm : r.meter? handle = some m)
    (hm' : r.meter? other = some m') (hid : key m'.id = key m.id) : other = handle := by
  obtain ⟨k, hk⟩ := mem_handles_iff.mp hmem
  obtain ⟨k', hk'⟩ := mem_handles_iff.mp hother
  obtain ⟨_, hsome, hkey⟩ := h.keyed k handle hk
  obtain ⟨_, hsome', hkey'⟩ := h.keyed k' other hk'
  rw [hm] at hsome
  rw [hm'] at hsome'
  cases hsome
  cases hsome'
  rw [hid, hkey] at hkey'
  rw [← hkey', hk] at hk'
  exact (Option.some.inj hk').symm

end Kept

/-! ## Snapshots of a registry -/

/-- What a meter reports, if there is one. -/
def report? (now : Binary64) (r : Registry) (handle : MeterHandle) : Option Snapshot :=
  (r.meter? handle).bind fun m => (m.snapshot now).1.toOption

theorem exists_meter_of_report {r : Registry} {now : Binary64} {handle : MeterHandle}
    {s : Snapshot} (h : r.report? now handle = some s) :
    ∃ m, r.meter? handle = some m ∧ (m.snapshot now).1 = .ok s := by
  obtain ⟨m, hm, hreport⟩ := Option.bind_eq_some_iff.mp h
  cases hsnapshot : (m.snapshot now).1 with
  | error fault => rw [hsnapshot] at hreport; cases hreport
  | ok s' =>
    rw [hsnapshot] at hreport
    cases hreport
    exact ⟨m, hm, hsnapshot⟩

/-- **All snapshots.** Each meter is snapshot once, and none fails. -/
theorem snapshotAll_spec (now : Binary64) {handles : List MeterHandle} (hnodup : handles.Nodup)
    {r : Registry} (h : r.Kept) (hmade : ∀ handle ∈ handles, ∃ m, r.meter? handle = some m) :
    ∃ r', snapshotAll now r handles = (.ok (handles.filterMap (report? now r)), r') ∧ r'.Kept ∧
      ∀ handle, r'.meter? handle = (r.meter? handle).map fun m =>
        if handle ∈ handles then (m.snapshot now).2 else m := by
  induction handles generalizing r with
  | nil => exact ⟨r, rfl, h, by simp⟩
  | cons handle rest ih =>
    obtain ⟨hnot, hrest⟩ := List.nodup_cons.mp hnodup
    obtain ⟨m, hm⟩ := hmade handle (List.mem_cons_self ..)
    obtain ⟨⟨s, hs, -⟩, -⟩ := Meter.snapshot_ready (h.ready _ _ hm) now
    have hput := meter?_put hm (m.snapshot now).2
    have hnext : (r.put handle (m.snapshot now).2).Kept :=
      h.put hm (MeterCall.follows now m .snapshot)
    have hother : ∀ other ∈ rest,
        (r.put handle (m.snapshot now).2).meter? other = r.meter? other := by
      intro other hmem
      rw [hput, if_neg (by rintro rfl; exact hnot hmem)]
    obtain ⟨r', hall, hkept, hafter⟩ := ih hrest hnext fun other hmem => by
      obtain ⟨m', hm'⟩ := hmade other (List.mem_cons_of_mem _ hmem)
      exact ⟨m', (hother other hmem).trans hm'⟩
    have hreports : rest.filterMap (report? now (r.put handle (m.snapshot now).2)) =
        rest.filterMap (report? now r) :=
      List.filterMap_congr fun other hmem => by rw [report?, report?, hother other hmem]
    refine ⟨r', ?_, hkept, fun other => ?_⟩
    · have hreport : report? now r handle = some s := by
        rw [report?, hm, Option.bind_some, hs]
        rfl
      rw [List.filterMap_cons_some hreport, ← hreports]
      simp only [snapshotAll, snapshotOne, hm, hs, hall]
      rfl
    · rw [hafter, hput]
      by_cases heq : other = handle
      · subst heq
        simp [hm, hnot]
      · simp [heq]

section Kept

variable {r : Registry} (h : r.Kept)

include h

theorem Kept.snapshot_spec (now : Binary64) :
    ∃ r', snapshot now r = (.ok (r.handles.filterMap (report? now r)), r') ∧ r'.Kept ∧
      ∀ handle, r'.meter? handle = (r.meter? handle).map fun m =>
        if handle ∈ r.handles then (m.snapshot now).2 else m := by
  refine snapshotAll_spec now h.nodup_handles h fun handle hmem => ?_
  obtain ⟨k, hk⟩ := mem_handles_iff.mp hmem
  obtain ⟨m, hm, -⟩ := h.keyed k handle hk
  exact ⟨m, hm⟩

theorem Kept.map_id_reports (now : Binary64) :
    (r.handles.filterMap (report? now r)).map (·.id) = r.meters.map (·.id) := by
  rw [meters, List.map_filterMap, List.map_filterMap]
  refine List.filterMap_congr fun handle _ => ?_
  cases hm : r.meter? handle with
  | none => rw [report?, hm]; rfl
  | some m =>
    obtain ⟨⟨s, hs, hid⟩, -⟩ := Meter.snapshot_ready (h.ready _ _ hm) now
    rw [report?, hm, Option.bind_some, hs]
    exact congrArg some hid

theorem Kept.pairwise_key :
    (r.meters.map (·.id)).Pairwise fun id other => key id ≠ key other := by
  rw [meters, List.map_filterMap, List.pairwise_filterMap]
  refine h.nodup_handles.imp_of_mem fun {handle other} hmem hother hne => ?_
  rintro _ hid _ hid'
  obtain ⟨m, hm, rfl⟩ := Option.map_eq_some_iff.mp hid
  obtain ⟨m', hm', rfl⟩ := Option.map_eq_some_iff.mp hid'
  exact fun heq => hne (h.handle_inj hmem hother hm hm' heq.symm).symm

/-- Among the reports of registered meters, one has the identity of a given one. -/
theorem Kept.filter_reports {now : Binary64} {handle : MeterHandle} (hmem : handle ∈ r.handles)
    {m : Meter} (hm : r.meter? handle = some m) {s : Snapshot}
    (hs : (m.snapshot now).1 = .ok s) :
    (r.handles.filterMap (report? now r)).filter (·.id = m.id) = [s] := by
  have hreport : report? now r handle = some s := by
    rw [report?, hm, Option.bind_some, hs]
    rfl
  have hother : ∀ {others : List MeterHandle}, (∀ other ∈ others, other ∈ r.handles) →
      handle ∉ others → (others.filterMap (report? now r)).filter (·.id = m.id) = [] := by
    intro others hothers hnot
    refine List.filter_eq_nil_iff.mpr fun s' hs' => ?_
    obtain ⟨other, hmem', hreport'⟩ := List.mem_filterMap.mp hs'
    obtain ⟨m', hm', hsnapshot⟩ := exists_meter_of_report hreport'
    rw [decide_eq_true_eq, Meter.id_snapshot hsnapshot]
    intro heq
    rw [h.handle_inj hmem (hothers _ hmem') hm hm' (congrArg key heq)] at hmem'
    exact hnot hmem'
  obtain ⟨before, after, heq⟩ := List.append_of_mem hmem
  have hnodup := h.nodup_handles
  rw [heq, List.nodup_append, List.nodup_cons] at hnodup
  obtain ⟨-, ⟨hafter, -⟩, hdisjoint⟩ := hnodup
  have hmembers : ∀ other, other ∈ before ∨ other ∈ after → other ∈ r.handles := by
    intro other hor
    rw [heq]
    simpa using hor.imp_right Or.inr
  rw [heq, List.filterMap_append, List.filterMap_cons_some hreport, List.filter_append,
    List.filter_cons_of_pos (by simp [Meter.id_snapshot hs]),
    hother (fun other ho => hmembers other (Or.inl ho))
      (fun hin => hdisjoint handle hin handle (List.mem_cons_self ..) rfl),
    hother (fun other ho => hmembers other (Or.inr ho)) hafter]
  rfl

end Kept

end Registry

namespace MeterSession

variable {s : MeterSession} (h : s.registry.Kept)

include h

theorem exists_snapshot : ∃ after, s.snapshot =
    (.ok (s.registry.handles.filterMap (Registry.report? s.now s.registry)), after) := by
  obtain ⟨r', hsnapshot, -, -⟩ := h.snapshot_spec s.now
  exact ⟨_, by rw [snapshot, hsnapshot]⟩

/-- **Snapshots of a counter.** The count of a registered counter is reported once, under its
identity, and starts again at zero. -/
theorem snapshot_counter {handle : MeterHandle} (hmem : handle ∈ s.registry.handles)
    {id : MeterId} {v : Binary64} (hm : s.registry.meter? handle = some ⟨id, .counter v⟩) :
    ∃ snapshots after, s.snapshot = (.ok snapshots, after) ∧ after.registry.Kept ∧
      snapshots.filter (·.id = id) = [⟨id, .counter v⟩] ∧
      after.registry.meter? handle = some ⟨id, .counter .zero⟩ := by
  obtain ⟨r', hsnapshot, hkept, hafter⟩ := h.snapshot_spec s.now
  refine ⟨_, _, by rw [snapshot, hsnapshot], hkept, h.filter_reports hmem hm rfl, ?_⟩
  rw [hafter, hm, Option.map_some, if_pos hmem]
  rfl

/-- **Uses** of a session keep its registry, and change no meter but the one that they
call. -/
theorem apply_spec (call : SessionCall) :
    (call.apply s).registry.Kept ∧
      ∀ handle m, s.registry.meter? handle = some m →
        (call.apply s).registry.meter? handle =
          match call with
          | .call other c => if other = handle then some (c.apply s.now m) else some m
          | _ => some m := by
  cases call with
  | register name tags description plan =>
    rw [SessionCall.apply]
    split
    · next hregister =>
      obtain ⟨hkept, hold⟩ := h.register hregister
      exact ⟨hkept, hold⟩
    · exact ⟨h, fun _ _ hm => hm⟩
  | call other c =>
    rw [SessionCall.apply]
    split
    · next m' hm' =>
      refine ⟨h.put hm' (MeterCall.follows s.now m' c), fun handle m hm => ?_⟩
      rw [put, Registry.meter?_put hm']
      simp only [eq_comm (a := handle)]
      split
      · next heq =>
        rw [heq, hm] at hm'
        cases hm'
        rfl
      · exact hm
    · next hnone =>
      refine ⟨h, fun handle m hm => ?_⟩
      dsimp only
      split
      · next heq =>
        rw [heq, hm] at hnone
        cases hnone
      · exact hm
  | remove handle =>
    refine ⟨h.remove handle, fun other m hm => ?_⟩
    rw [SessionCall.apply, Registry.remove]
    split <;> exact hm
  | clear => exact ⟨h.clear, fun _ _ hm => hm⟩
  | wait now => exact ⟨h, fun _ _ hm => hm⟩

theorem kept_applyAll (calls : List SessionCall) : (applyAll calls s).registry.Kept := by
  rw [applyAll]
  induction calls generalizing s with
  | nil => exact h
  | cons call rest ih => exact ih (apply_spec h call).1

omit h in
theorem kept_run (calls : List SessionCall) : (applyAll calls {}).registry.Kept :=
  kept_applyAll Registry.kept_empty calls

end MeterSession

/-! ## Properties of all meters -/

namespace Registry

theorem mem_made_of_meter? {r : Registry} {handle : MeterHandle} {m : Meter}
    (hm : r.meter? handle = some m) : m ∈ r.made := List.mem_of_getElem? hm

theorem mem_made_of_mem_meters {r : Registry} {m : Meter} (hm : m ∈ r.meters) : m ∈ r.made := by
  obtain ⟨handle, -, hmeter⟩ := List.mem_filterMap.mp hm
  exact mem_made_of_meter? hmeter

end Registry

section Made

variable {P : Meter → Prop} (hkeeps : ∀ now m call, P m → P (MeterCall.apply now m call))

include hkeeps

/-- What every operation keeps and a new meter has, all meters have after a use. -/
theorem SessionCall.forall_made_apply {call : SessionCall} {s : MeterSession}
    (hnew : ∀ name tags description plan state,
      call = .register name tags description plan → plan.state = .ok state →
        P ⟨.create name tags description plan.type, state⟩)
    (h : ∀ m ∈ s.registry.made, P m) : ∀ m ∈ (call.apply s).registry.made, P m := by
  cases call with
  | register name tags description plan =>
    rw [SessionCall.apply]
    split
    · next hregister =>
      rcases Registry.register_spec hregister with rfl | ⟨state, hstate, rfl⟩
      · exact h
      · intro m hm
        rw [List.mem_append, List.mem_singleton] at hm
        rcases hm with hm | rfl
        · exact h m hm
        · exact hnew _ _ _ _ _ rfl hstate
    · exact h
  | call handle c =>
    rw [SessionCall.apply]
    split
    · next m hm =>
      intro m' hm'
      rcases List.mem_or_eq_of_mem_set hm' with hold | rfl
      · exact h m' hold
      · exact hkeeps _ _ _ (h m (Registry.mem_made_of_meter? hm))
    · exact h
  | remove handle =>
    rw [SessionCall.apply, Registry.remove]
    split <;> exact h
  | clear => exact h
  | wait now => exact h

/-- **Properties of all meters** over a run: of every new meter, and kept by every operation. -/
theorem MeterSession.forall_made {calls : List SessionCall}
    (hnew : ∀ name tags description plan state,
      .register name tags description plan ∈ calls → plan.state = .ok state →
        P ⟨.create name tags description plan.type, state⟩)
    {s : MeterSession} (h : ∀ m ∈ s.registry.made, P m) :
    ∀ m ∈ (applyAll calls s).registry.made, P m := by
  rw [applyAll]
  induction calls generalizing s with
  | nil => exact h
  | cons call rest ih =>
    refine ih (fun name tags description plan state hmem => ?_) ?_
    · exact hnew name tags description plan state (List.mem_cons_of_mem _ hmem)
    · refine SessionCall.forall_made_apply hkeeps (fun name tags description plan state heq => ?_) h
      exact hnew name tags description plan state (heq ▸ List.mem_cons_self ..)

end Made

end Telemetry

import Mathlib.Data.List.Forall2
import Telemetry.Proofs.Meter.Identity
import Telemetry.Proofs.Meter.RegistryRuns

/-!
Who is registered, over whole runs of a registry, and in which order.

The holder of the meters keeps a roster: the meters that registrations gave, until they are removed
or all are. The registry itself files meters under their names and tags.

Proved here:

* `OrderedMap.values_insert`, `values_erase`: the order of values after a key is added or taken out;
* `MeterId.key_eq_iff`: identities have the same key exactly if they have the same name and
  mapping of tags;
* `Registry.Kept.register_known`, `Registry.register_new`: the outcomes of a registration;
* `MeterSession.note_handles`: a use changes the registered meters as it changes the roster;
* `MeterSession.registry_orderly`: identity, outcomes, order and snapshots in every run;
* `MeterSession.remove_exact`: a removal takes the meter that it is given exactly if no other
  meter is registered under the same name and tags.
-/

namespace Telemetry

/-! ## The order of values -/

section Values

variable {κ υ : Type} [DecidableEq κ]

theorem Pairs.map_set_of_none {k : κ} {ps : List (κ × υ)} (h : get? k ps = none) (v : υ) :
    (set k v ps).map (·.2) = ps.map (·.2) ++ [v] := by
  rw [set_of_none h, List.map_append]
  rfl

theorem Pairs.erase_of_none {k : κ} {ps : List (κ × υ)} (h : get? k ps = none) :
    erase k ps = ps := by
  induction ps with
  | nil => rfl
  | cons p rest ih =>
    rw [get?] at h
    split at h
    · cases h
    · next hne => rw [erase, if_neg hne, ih h]

theorem Pairs.mem_map_of_get? {k : κ} {v : υ} {ps : List (κ × υ)} (h : get? k ps = some v) :
    v ∈ ps.map (·.2) := by
  induction ps with
  | nil => cases h
  | cons p rest ih =>
    rw [get?] at h
    split at h
    · rw [← Option.some.inj h]
      exact List.mem_cons_self ..
    · exact List.mem_cons_of_mem _ (ih h)

theorem Pairs.map_erase_of_some [DecidableEq υ] {k : κ} {v : υ} {ps : List (κ × υ)}
    (h : get? k ps = some v) (hnodup : (ps.map (·.2)).Nodup) :
    (erase k ps).map (·.2) = (ps.map (·.2)).erase v := by
  induction ps with
  | nil => cases h
  | cons p rest ih =>
    rw [List.map_cons, List.nodup_cons] at hnodup
    rw [get?] at h
    split at h
    · next heq =>
      obtain rfl := Option.some.inj h
      rw [erase, if_pos heq, List.map_cons, List.erase_cons_head]
    · next hne =>
      have hmem := mem_map_of_get? h
      have hother : p.2 ≠ v := fun heq => hnodup.1 (heq ▸ hmem)
      rw [erase, if_neg hne, List.map_cons, ih h hnodup.2, List.map_cons,
        List.erase_cons_tail (by simpa using hother)]

namespace OrderedMap

variable {m : OrderedMap κ υ} {k : κ}

theorem values_insert (h : m.get? k = none) (v : υ) : (m.insert k v).values = m.values ++ [v] :=
  Pairs.map_set_of_none h v

theorem erase_of_none (h : m.get? k = none) : m.erase k = m := by
  obtain ⟨entries, hnodup⟩ := m
  rw [erase]
  congr
  exact Pairs.erase_of_none h

theorem values_erase [DecidableEq υ] {v : υ} (h : m.get? k = some v) (hnodup : m.values.Nodup) :
    (m.erase k).values = m.values.erase v :=
  Pairs.map_erase_of_some h hnodup

end OrderedMap

end Values

/-! ## Names and tags -/

/-- An identity with this name and mapping of tags. -/
def MeterId.Names (id : MeterId) (name : String) (tags : OrderedMap String String) : Prop :=
  id.name = name ∧ ∀ k, id.tagMap.get? k = tags.get? k

theorem MeterId.key_eq_iff {id : MeterId} (hid : ∃ own, id.tags = sortTags own) (name : String)
    (tags : OrderedMap String String) :
    Registry.key id = (name, sortTags tags) ↔ id.Names name tags := by
  obtain ⟨own, hown⟩ := hid
  have hmap : ∀ k, id.tagMap.get? k = own.get? k := fun k => by
    rw [tagMap, hown, get?_ofList_sortTags]
  rw [Registry.key, Prod.mk.injEq, hown, sortTags_eq_iff, Names]
  simp only [hmap]

theorem MeterCall.type_apply (now : Binary64) (m : Meter) (call : MeterCall) :
    (call.apply now m).type = m.type := by
  obtain ⟨id, state⟩ := m
  cases call with
  | increment amount =>
    cases state with
    | counter value =>
      simp only [apply, Meter.increment]
      split <;> rfl
    | _ => rfl
  | snapshot =>
    cases state with
    | functionTimer count total lastCount lastTotal =>
      simp only [apply, Meter.snapshot, Meter.readState]
      split <;> rfl
    | _ => rfl
  | _ => cases state <;> rfl

theorem MeterPlan.type_of_state {plan : MeterPlan} {state : MeterState}
    (h : plan.state = .ok state) : state.type = plan.type := by
  cases plan with
  | timer boundaries fractions =>
    obtain ⟨_, -, rfl⟩ := Fault.exists_of_map_eq_ok h
    rfl
  | summary boundaries fractions =>
    obtain ⟨_, -, rfl⟩ := Fault.exists_of_map_eq_ok h
    rfl
  | _ =>
    cases h
    rfl

/-- Every meter of a run has its tags in order and the kind that its identity says. -/
theorem MeterSession.made_identified (calls : List SessionCall) :
    ∀ m ∈ (applyAll calls {}).registry.made,
      (∃ own, m.id.tags = MeterId.sortTags own) ∧ m.type = m.id.type := by
  refine forall_made
    (P := fun m => (∃ own, m.id.tags = MeterId.sortTags own) ∧ m.type = m.id.type)
    (fun now m call h => ?_) (fun name tags description plan state _ hstate => ?_) (fun m hm => ?_)
  · rwa [(MeterCall.follows now m call).1, MeterCall.type_apply]
  · exact ⟨⟨tags, rfl⟩, MeterPlan.type_of_state hstate⟩
  · cases hm

namespace Registry

variable {r : Registry} (h : r.Kept)

/-! ## Registrations -/

section Kept

include h

theorem Kept.exists_meter {handle : MeterHandle} (hmem : handle ∈ r.handles) :
    ∃ m, r.meter? handle = some m ∧ r.registered.get? (key m.id) = some handle := by
  obtain ⟨k, hk⟩ := mem_handles_iff.mp hmem
  obtain ⟨m, hm, rfl⟩ := h.keyed k handle hk
  exact ⟨m, hm, hk⟩

theorem Kept.get?_key {handle : MeterHandle} {m : Meter} (hmem : handle ∈ r.handles)
    (hm : r.meter? handle = some m) : r.registered.get? (key m.id) = some handle := by
  obtain ⟨_, hsome, hget⟩ := h.exists_meter hmem
  rw [hm] at hsome
  cases hsome
  exact hget

theorem Kept.get?_eq_none {k : MeterKey}
    (hnone : ∀ handle ∈ r.handles, ∀ m, r.meter? handle = some m → key m.id ≠ k) :
    r.registered.get? k = none := by
  refine Option.eq_none_iff_forall_not_mem.mpr fun handle hget => ?_
  obtain ⟨m, hm, hkey⟩ := h.keyed k handle hget
  exact hnone handle (mem_handles_iff.mpr ⟨k, hget⟩) m hm hkey

section Outcomes

variable {name : String} {tags : OrderedMap String String} (description : Option String)
  (type : MeterType) (make : Except Fault MeterState)

/-- A name and tags that are taken: the meter there, or an error if it has another kind. -/
theorem Kept.register_known {handle : MeterHandle} {m : Meter} (hmem : handle ∈ r.handles)
    (hm : r.meter? handle = some m) (hkey : key m.id = (name, MeterId.sortTags tags)) :
    r.register name tags description type make =
      if m.type = type then .ok (handle, r) else .error (.meterKindClash name m.type.name) := by
  have hget := h.get?_key hmem hm
  rw [hkey] at hget
  have hfound : (r.registered.get? (key (.create name tags description type))).bind
      (fun handle => (r.meter? handle).map fun m => (handle, m)) = some (handle, m) := by
    rw [show key (.create name tags description type) = (name, MeterId.sortTags tags) from rfl,
      hget, Option.bind_some, hm]
    rfl
  rw [Registry.register]
  simp only [hfound]

omit h in
/-- A name and tags that are free: a new meter at the end, unless it cannot be made. -/
theorem register_new (hget : r.registered.get? (name, MeterId.sortTags tags) = none) :
    r.register name tags description type make =
      make.map fun state => (r.made.length,
        ⟨r.made ++ [⟨.create name tags description type, state⟩],
          r.registered.insert (name, MeterId.sortTags tags) r.made.length⟩) := by
  have hfound : (r.registered.get? (key (.create name tags description type))).bind
      (fun handle => (r.meter? handle).map fun m => (handle, m)) = none := by
    rw [show key (.create name tags description type) = (name, MeterId.sortTags tags) from rfl,
      hget]
    rfl
  rw [Registry.register]
  simp only [hfound]
  cases make <;> rfl

end Outcomes

/-! ## Removals -/

/-- A removal takes out the meter that has the key of the given one. -/
theorem Kept.remove_of_key {handle other : MeterHandle} {m m' : Meter}
    (hm : r.meter? handle = some m) (hmem : other ∈ r.handles)
    (hm' : r.meter? other = some m') (hkey : key m'.id = key m.id) :
    (r.remove handle).1 = true ∧ (r.remove handle).2.handles = r.handles.erase other := by
  have hget := h.get?_key hmem hm'
  rw [hkey] at hget
  have hcontains : r.registered.contains (key m.id) = true := Option.isSome_of_eq_some hget
  simp only [Registry.remove, hm]
  exact ⟨hcontains, OrderedMap.values_erase hget h.nodup_handles⟩

theorem Kept.remove_of_no_key {handle : MeterHandle} {m : Meter}
    (hm : r.meter? handle = some m)
    (hnone : ∀ other ∈ r.handles, ∀ m', r.meter? other = some m' → key m'.id ≠ key m.id) :
    r.remove handle = (false, r) := by
  have hget := h.get?_eq_none hnone
  have hcontains : r.registered.contains (key m.id) = false := by
    simp only [OrderedMap.contains, hget, Option.isSome_none]
  simp only [Registry.remove, hm, hcontains, OrderedMap.erase_of_none hget]

end Kept

end Registry

/-! ## The roster of the holder -/

/-- The roster after a use of a session. A meter that a registration gives is added at the end,
unless it is on the roster. -/
def SessionCall.note (s : MeterSession) (roster : List MeterHandle) :
    SessionCall → List MeterHandle
  | .register name tags description plan =>
    match s.registry.register name tags description plan.type plan.state with
    | .ok (handle, _) => if handle ∈ roster then roster else roster ++ [handle]
    | .error _ => roster
  | .remove handle => roster.erase handle
  | .clear => []
  | .call .. => roster
  | .wait _ => roster

/-- A removal is of a meter that is registered. -/
def SessionCall.RemovesRegistered (s : MeterSession) : SessionCall → Prop
  | .remove handle => handle ∈ s.registry.handles
  | _ => True

namespace MeterSession

/-- The roster after uses of a session in turn. -/
def roster (s : MeterSession) (noted : List MeterHandle) : List SessionCall → List MeterHandle
  | [] => noted
  | call :: rest => (call.apply s).roster (call.note s noted) rest

/-- Each removal is of a meter that is registered at that time. -/
def RemovesRegistered (s : MeterSession) : List SessionCall → Prop
  | [] => True
  | call :: rest => call.RemovesRegistered s ∧ (call.apply s).RemovesRegistered rest

variable {s : MeterSession} (h : s.registry.Kept)

include h

/-- **A use** changes the registered meters as it changes the roster. -/
theorem note_handles {call : SessionCall} (hremoves : call.RemovesRegistered s) :
    call.note s s.registry.handles = (call.apply s).registry.handles := by
  cases call with
  | register name tags description plan =>
    cases hget : s.registry.registered.get? (name, MeterId.sortTags tags) with
    | some handle =>
      obtain ⟨m, hm, hkey⟩ := h.keyed _ _ hget
      have hmem := Registry.mem_handles_iff.mpr ⟨_, hget⟩
      have hregister := h.register_known description plan.type plan.state hmem hm hkey
      by_cases htype : m.type = plan.type
      · rw [if_pos htype] at hregister
        simp only [SessionCall.note, SessionCall.apply, hregister, if_pos hmem]
      · rw [if_neg htype] at hregister
        simp only [SessionCall.note, SessionCall.apply, hregister]
    | none =>
      have hregister := Registry.register_new description plan.type plan.state hget
      cases hstate : plan.state with
      | error fault =>
        rw [hstate] at hregister
        simp only [SessionCall.note, SessionCall.apply, hstate, hregister, Except.map]
      | ok state =>
        rw [hstate] at hregister
        have hnot : s.registry.made.length ∉ s.registry.handles := fun hmem => by
          obtain ⟨m, hm, -⟩ := h.exists_meter hmem
          exact Nat.lt_irrefl _ (List.getElem?_eq_some_iff.mp hm).1
        simp only [SessionCall.note, SessionCall.apply, hstate, hregister, Except.map,
          if_neg hnot]
        exact (OrderedMap.values_insert hget _).symm
  | call handle c =>
    rw [SessionCall.note, SessionCall.apply]
    split <;> rfl
  | remove handle =>
    obtain ⟨m, hm, -⟩ := h.exists_meter hremoves
    exact (h.remove_of_key hm hremoves hm rfl).2.symm
  | clear => rfl
  | wait now => rfl

/-- The registered meters of a run are those on the roster, in its order. -/
theorem handles_applyAll {calls : List SessionCall} (hremoves : s.RemovesRegistered calls) :
    (applyAll calls s).registry.handles = s.roster s.registry.handles calls := by
  induction calls generalizing s with
  | nil => rfl
  | cons call rest ih =>
    rw [roster, note_handles h hremoves.1]
    exact ih (apply_spec h call).1 hremoves.2

end MeterSession

/-! ## Order in every run -/

/-- The registered meters: each is stored under its own name and tags, and no two have the same
name and mapping of tags. -/
structure Registry.Indexed (r : Registry) : Prop where
  stored : ∀ k handle, r.registered.get? k = some handle →
    ∃ m, r.meter? handle = some m ∧ k = (m.id.name, m.id.tags) ∧ m.type = m.id.type
  once : r.handles.Nodup
  distinct : ∀ handle ∈ r.handles, ∀ other ∈ r.handles, ∀ m m',
    r.meter? handle = some m → r.meter? other = some m' →
      m'.id.Names m.id.name m.id.tagMap → other = handle

/-- No registered meter has this name and mapping of tags. -/
def Registry.Free (r : Registry) (name : String) (tags : OrderedMap String String) : Prop :=
  ∀ handle ∈ r.handles, ∀ m, r.meter? handle = some m → ¬ m.id.Names name tags

/-- A registration: the meter that is registered, if it has the kind asked for; an error if it
has another; a new meter at the end if there is none; and an error if that cannot be made. -/
structure MeterSession.Registers (s : MeterSession) (name : String)
    (tags : OrderedMap String String) (description : Option String) (plan : MeterPlan) :
    Prop where
  known : ∀ handle ∈ s.registry.handles, ∀ m, s.registry.meter? handle = some m →
    m.id.Names name tags → m.type = plan.type →
      s.registry.register name tags description plan.type plan.state =
        .ok (handle, s.registry) ∧
      (SessionCall.register name tags description plan).apply s = s
  clash : ∀ handle ∈ s.registry.handles, ∀ m, s.registry.meter? handle = some m →
    m.id.Names name tags → m.type ≠ plan.type →
      s.registry.register name tags description plan.type plan.state =
        .error (.meterKindClash name m.type.name) ∧
      (SessionCall.register name tags description plan).apply s = s
  refused : s.registry.Free name tags → ∀ fault, plan.state = .error fault →
    s.registry.register name tags description plan.type plan.state = .error fault ∧
    (SessionCall.register name tags description plan).apply s = s
  fresh : s.registry.Free name tags → ∀ state, plan.state = .ok state →
    ∃ r, s.registry.register name tags description plan.type plan.state =
        .ok (s.registry.made.length, r) ∧
      r.made = s.registry.made ++ [⟨.create name tags description plan.type, state⟩] ∧
      r.handles = s.registry.handles ++ [s.registry.made.length] ∧
      (SessionCall.register name tags description plan).apply s = { s with registry := r }

/-- The snapshots: one of each registered meter, in their order, under its identity. -/
def Registry.SnapshotsInOrder (r : Registry) (now : Binary64) : Prop :=
  ∃ snapshots after, r.snapshot now = (.ok snapshots, after) ∧
    List.Forall₂ (fun handle snapshot => ∃ m, r.meter? handle = some m ∧
      (m.snapshot now).1 = .ok snapshot ∧ snapshot.id = m.id) r.handles snapshots

namespace MeterSession

variable (calls : List SessionCall)

/-- The key of a meter of a run: that of its name and tags. -/
theorem key_iff_run (name : String) (tags : OrderedMap String String) {handle : MeterHandle}
    {m : Meter} (hm : (applyAll calls {}).registry.meter? handle = some m) :
    Registry.key m.id = (name, MeterId.sortTags tags) ↔ m.id.Names name tags :=
  MeterId.key_eq_iff (made_identified calls m (Registry.mem_made_of_meter? hm)).1 name tags

theorem indexed_run : (applyAll calls {}).registry.Indexed where
  stored k handle hget := by
    obtain ⟨m, hm, hkey⟩ := (kept_run calls).keyed k handle hget
    exact ⟨m, hm, hkey.symm, (made_identified calls m (Registry.mem_made_of_meter? hm)).2⟩
  once := (kept_run calls).nodup_handles
  distinct handle hmem other hother m m' hm hm' hnames := by
    refine (kept_run calls).handle_inj hmem hother hm hm' ?_
    have hself : m.id.Names m.id.name m.id.tagMap := ⟨rfl, fun _ => rfl⟩
    rw [(key_iff_run calls _ _ hm').mpr hnames, (key_iff_run calls _ _ hm).mpr hself]

variable (name : String) (tags : OrderedMap String String)

theorem get?_of_free (hfree : (applyAll calls {}).registry.Free name tags) :
    (applyAll calls {}).registry.registered.get? (name, MeterId.sortTags tags) = none :=
  (kept_run calls).get?_eq_none fun handle hmem m hm hkey =>
    hfree handle hmem m hm ((key_iff_run calls name tags hm).mp hkey)

theorem registers_run (description : Option String) (plan : MeterPlan) :
    (applyAll calls {}).Registers name tags description plan where
  known handle hmem m hm hnames htype := by
    have hregister := (kept_run calls).register_known description plan.type plan.state hmem hm
      ((key_iff_run calls name tags hm).mpr hnames)
    rw [if_pos htype] at hregister
    exact ⟨hregister, by simp only [SessionCall.apply, hregister]⟩
  clash handle hmem m hm hnames htype := by
    have hregister := (kept_run calls).register_known description plan.type plan.state hmem hm
      ((key_iff_run calls name tags hm).mpr hnames)
    rw [if_neg htype] at hregister
    exact ⟨hregister, by simp only [SessionCall.apply, hregister]⟩
  refused hfree fault hfault := by
    have hregister := Registry.register_new description plan.type plan.state
      (get?_of_free calls name tags hfree)
    rw [hfault] at hregister ⊢
    exact ⟨hregister, by simp only [SessionCall.apply, hfault, hregister, Except.map]⟩
  fresh hfree state hstate := by
    have hget := get?_of_free calls name tags hfree
    have hregister := Registry.register_new description plan.type plan.state hget
    rw [hstate] at hregister ⊢
    refine ⟨_, hregister, rfl, OrderedMap.values_insert hget _, ?_⟩
    simp only [SessionCall.apply, hstate, hregister, Except.map]

end MeterSession

theorem Registry.Kept.snapshotsInOrder {r : Registry} (h : r.Kept) (now : Binary64) :
    r.SnapshotsInOrder now := by
  obtain ⟨after, hsnapshot, -, -⟩ := h.snapshot_spec now
  refine ⟨_, after, hsnapshot, ?_⟩
  have hmade : ∀ handle ∈ r.handles, ∃ m, r.meter? handle = some m := fun handle hmem => by
    obtain ⟨m, hm, -⟩ := h.exists_meter hmem
    exact ⟨m, hm⟩
  generalize r.handles = handles at hmade
  induction handles with
  | nil => exact .nil
  | cons handle rest ih =>
    obtain ⟨m, hm⟩ := hmade handle (List.mem_cons_self ..)
    obtain ⟨⟨s, hs, hid⟩, -⟩ := Meter.snapshot_ready (h.ready _ _ hm) now
    have hreport : report? now r handle = some s := by
      rw [report?, hm, Option.bind_some, hs]
      rfl
    rw [List.filterMap_cons_some hreport]
    exact .cons ⟨m, hm, hs, hid⟩ (ih fun other hmem => hmade other (List.mem_cons_of_mem _ hmem))

namespace MeterSession

/-- **A registry in every run.** Registered meters are told apart by name and mapping of tags and
stored under their own. A registration gives the meter that is registered, an error or a new
meter at the end, and changes nothing in the first two cases. Snapshots are of the registered
meters in their order, which is the order of their registrations if only registered meters are
removed. -/
theorem registry_orderly (calls : List SessionCall) :
    (applyAll calls {}).registry.Indexed ∧
    (∀ name tags description plan, (applyAll calls {}).Registers name tags description plan) ∧
    (∀ now, (applyAll calls {}).registry.SnapshotsInOrder now) ∧
    (RemovesRegistered {} calls → (applyAll calls {}).registry.handles = roster {} [] calls) :=
  ⟨indexed_run calls, registers_run calls, (kept_run calls).snapshotsInOrder,
    handles_applyAll Registry.kept_empty⟩

/-- The same tags in two orders. -/
def zoneFirst : OrderedMap String String := .ofList [("zone", "b"), ("kind", "a")]

@[inherit_doc zoneFirst]
def kindFirst : OrderedMap String String := .ofList [("kind", "a"), ("zone", "b")]

theorem sortTags_kindFirst : MeterId.sortTags kindFirst = [("kind", "a"), ("zone", "b")] := by
  refine List.mergeSort_of_pairwise ?_
  decide +kernel

theorem sortTags_zoneFirst : MeterId.sortTags zoneFirst = [("kind", "a"), ("zone", "b")] := by
  rw [← sortTags_kindFirst, MeterId.sortTags_eq_iff]
  exact (Pairs.perm_iff zoneFirst.nodup kindFirst.nodup).mp (List.Perm.swap _ _ [])

/-- A counter is registered twice under the same tags, and once asked for as a gauge; a summary of
the percentile 2 is refused. Then the counter is removed and a gauge takes its place, at the end
of the order. -/
def reregistration : List SessionCall :=
  [.register "jobs" zoneFirst none .counter,
    .register "load" .empty none (.gauge none),
    .register "jobs" kindFirst (some "Jobs.") .counter,
    .register "jobs" kindFirst none (.gauge none),
    .register "size" .empty none (.summary [] [.ofInt 2]),
    .remove 0,
    .register "jobs" kindFirst none (.gauge none)]

theorem registry_orderly_reregistration :
    let s := applyAll reregistration {}
    s.registry.handles = roster {} [] reregistration ∧
    s.registry.handles = [1, 2] ∧
    s.registry.register "jobs" zoneFirst none .gauge (.ok (.gauge {})) = .ok (2, s.registry) := by
  intro s
  obtain ⟨-, hregisters, -, horder⟩ := registry_orderly reregistration
  have hhandles : s.registry.handles = [1, 2] := by
    simp only [s, reregistration, applyAll, List.foldl, SessionCall.apply,
      Registry.register, MeterId.create, sortTags_zoneFirst, sortTags_kindFirst]
    decide +kernel
  have hgauge : (s.registry.meter? 2).map (fun m => (Registry.key m.id, m.type)) =
      some (("jobs", [("kind", "a"), ("zone", "b")]), .gauge) := by
    simp only [s, reregistration, applyAll, List.foldl, SessionCall.apply,
      Registry.register, MeterId.create, sortTags_zoneFirst, sortTags_kindFirst]
    decide +kernel
  have hremoves : RemovesRegistered {} reregistration := by
    refine ⟨trivial, trivial, trivial, trivial, trivial, ?_, trivial, trivial⟩
    simp only [SessionCall.RemovesRegistered, SessionCall.apply,
      Registry.register, MeterId.create, sortTags_zoneFirst, sortTags_kindFirst]
    decide +kernel
  obtain ⟨m, hm, hpair⟩ := Option.map_eq_some_iff.mp hgauge
  obtain ⟨hkey, htype⟩ := Prod.mk.inj hpair
  rw [← sortTags_zoneFirst] at hkey
  have hnames := (key_iff_run reregistration "jobs" zoneFirst hm).mp hkey
  exact ⟨horder hremoves, hhandles, ((hregisters "jobs" zoneFirst none (.gauge none)).known 2
    (hhandles ▸ by decide) m hm hnames htype).1⟩

end MeterSession

/-! ## Removals of any meter that was made -/

namespace Registry

/-- A removal takes the meter that it is given and no other: exactly if that one is registered. -/
def RemovesGiven (r : Registry) (handle : MeterHandle) : Prop :=
  if handle ∈ r.handles then
    (r.remove handle).1 = true ∧ (r.remove handle).2.handles = r.handles.erase handle
  else (r.remove handle).1 = false ∧ (r.remove handle).2.handles = r.handles

theorem made_remove (r : Registry) (handle : MeterHandle) : (r.remove handle).2.made = r.made := by
  rw [remove]
  split <;> rfl

/-- A removal takes the meter that it is given as long as no other has its key. -/
theorem Kept.removesGiven_iff {r : Registry} (h : r.Kept) {handle : MeterHandle} {m : Meter}
    (hm : r.meter? handle = some m) :
    r.RemovesGiven handle ↔ ∀ other ∈ r.handles, ∀ m', r.meter? other = some m' →
      key m'.id = key m.id → other = handle := by
  rw [RemovesGiven]
  split
  · next hregistered =>
    refine iff_of_true (h.remove_of_key hm hregistered hm rfl) fun other hmem m' hm' hkey => ?_
    exact h.handle_inj hregistered hmem hm hm' hkey
  · next hnot =>
    constructor
    · intro hgiven other hmem m' hm' hkey
      have htaken := (h.remove_of_key hm hmem hm' hkey).1
      rw [hgiven.1] at htaken
      cases htaken
    · intro honly
      rw [h.remove_of_no_key hm fun other hmem m' hm' hkey =>
        hnot (honly other hmem m' hm' hkey ▸ hmem)]
      exact ⟨rfl, rfl⟩

end Registry

namespace MeterSession

/-- **Removals.** The registered meter that has the name and tags of the given one is taken out,
be it that meter or another; without one, nothing is. So a removal takes the meter that it is
given exactly if no other meter is registered in its place. -/
theorem remove_exact (calls : List SessionCall) {handle : MeterHandle} {m : Meter}
    (hm : (applyAll calls {}).registry.meter? handle = some m) :
    let r := (applyAll calls {}).registry
    (r.remove handle).2.made = r.made ∧
    (∀ other ∈ r.handles, ∀ m', r.meter? other = some m' →
      m'.id.Names m.id.name m.id.tagMap →
        (r.remove handle).1 = true ∧ (r.remove handle).2.handles = r.handles.erase other) ∧
    (r.Free m.id.name m.id.tagMap → r.remove handle = (false, r)) ∧
    (r.RemovesGiven handle ↔ ∀ other ∈ r.handles, ∀ m', r.meter? other = some m' →
      m'.id.Names m.id.name m.id.tagMap → other = handle) := by
  intro r
  have hkept : r.Kept := kept_run calls
  -- a meter has the key of the given one exactly if it has its name and tags
  have hkey : ∀ {other m'}, r.meter? other = some m' →
      (Registry.key m'.id = Registry.key m.id ↔ m'.id.Names m.id.name m.id.tagMap) := by
    intro other m' hm'
    rw [(key_iff_run calls _ _ hm).mpr ⟨rfl, fun _ => rfl⟩]
    exact key_iff_run calls _ _ hm'
  refine ⟨r.made_remove handle, fun other hmem m' hm' hnames => ?_, fun hfree => ?_, ?_⟩
  · exact hkept.remove_of_key hm hmem hm' ((hkey hm').mpr hnames)
  · refine hkept.remove_of_no_key hm fun other hmem m' hm' heq => ?_
    exact hfree other hmem m' hm' ((hkey hm').mp heq)
  · rw [hkept.removesGiven_iff hm]
    refine forall₂_congr fun other hmem => forall₂_congr fun m' hm' => ?_
    rw [hkey hm']

/-- A counter is registered, removed, and another is registered in its place. -/
def succession : List SessionCall :=
  [.register "jobs" .empty none .counter, .remove 0, .register "jobs" .empty none .counter]

theorem remove_exact_before_succession :
    let r := (applyAll (succession.take 2) {}).registry
    r.meter? 0 = some ⟨.create "jobs" .empty none .counter, .counter .zero⟩ ∧
      r.remove 0 = (false, r) := by
  have hm : (applyAll (succession.take 2) {}).registry.meter? 0 =
      some ⟨.create "jobs" .empty none .counter, .counter .zero⟩ := rfl
  have hhandles : (applyAll (succession.take 2) {}).registry.handles = [] := by
    decide +kernel
  refine ⟨hm, (remove_exact (succession.take 2) hm).2.2.1 fun other hmem => ?_⟩
  rw [hhandles] at hmem
  cases hmem

/-- The first counter, which is not registered, is given; the second is taken. -/
theorem remove_takes_successor :
    let r := (applyAll succession {}).registry
    (r.meter? 0).map (·.id) = some (.create "jobs" .empty none .counter) ∧
      r.handles = [1] ∧ (r.remove 0).1 = true ∧ (r.remove 0).2.handles = [] ∧
      ¬ r.RemovesGiven 0 := by
  intro r
  have hhandles : r.handles = [1] := by decide +kernel
  have htrue : (r.remove 0).1 = true := by decide +kernel
  refine ⟨by decide +kernel, hhandles, htrue, by decide +kernel, fun hgiven => ?_⟩
  rw [Registry.RemovesGiven, hhandles, if_neg (by decide), htrue] at hgiven
  cases hgiven.1

end MeterSession
end Telemetry

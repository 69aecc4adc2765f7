import Telemetry.Proofs.Exporter.Conservation
import Telemetry.Proofs.Exporter.Windows

/-!
The order of the ends of windows, and of the two ends of an interval, under a wall clock that may
go anywhere.

Proved here:

* `follows_marks`: whatever the clock does, a window starts just after the mark before it;
* `endsRise_iff`: the end of the previous window never falls exactly if no cycle is before the mark
  before it;
* `intervalsOrdered_iff`: every interval that is handed over ends no earlier than it starts exactly
  if every cycle that hands one over is after the mark before it;
* `intervals_ordered`: both for a new exporter, and what a clock that never goes back is enough for;
* `intervals_disordered`: neither holds of all runs.
-/

namespace Telemetry

/-- An interval that has a start does not end before it. -/
def TimeInterval.Ordered (i : TimeInterval) : Prop := ∀ start ∈ i.start, start ≤ i.stop

instance (i : TimeInterval) : Decidable i.Ordered :=
  inferInstanceAs (Decidable (∀ start ∈ i.start, start ≤ i.stop))

namespace Exporter

variable {σ ρ ω : Type}

/-! ## Cycles beside the marks before them -/

/-- Every cycle stands in a relation to the time of the mark before it. -/
def EachCycle (R : Int → Cycle → Prop) : Int → List Mark → Prop
  | _, [] => True
  | _, .origin time :: rest => EachCycle R time rest
  | previous, .cycle c :: rest => R previous c ∧ EachCycle R c.time rest

instance decidableEachCycle (R : Int → Cycle → Prop) [∀ before c, Decidable (R before c)] :
    (previous : Int) → (ms : List Mark) → Decidable (EachCycle R previous ms)
  | _, [] => .isTrue trivial
  | _, .origin time :: rest => decidableEachCycle R time rest
  | previous, .cycle c :: rest =>
    have := decidableEachCycle R c.time rest
    inferInstanceAs (Decidable (R previous c ∧ EachCycle R c.time rest))

theorem EachCycle.imp {R S : Int → Cycle → Prop} {previous : Int} {ms : List Mark}
    (himp : ∀ before c, R before c → S before c) (h : EachCycle R previous ms) :
    EachCycle S previous ms := by
  induction ms generalizing previous with
  | nil => trivial
  | cons mark rest ih =>
    cases mark with
    | origin time => exact ih h
    | cycle c => exact ⟨himp _ _ h.1, ih h.2⟩

theorem eachCycle_and {R S : Int → Cycle → Prop} {previous : Int} {ms : List Mark} :
    EachCycle (fun before c => R before c ∧ S before c) previous ms ↔
      EachCycle R previous ms ∧ EachCycle S previous ms := by
  induction ms generalizing previous with
  | nil => exact (and_self_iff).symm
  | cons mark rest ih =>
    cases mark with
    | origin time => exact ih
    | cycle c =>
      simp only [EachCycle, ih]
      exact and_and_and_comm

/-- Relations that come to the same for each cycle of a run come to the same for the run. -/
theorem EachCycle.congr {R S T : Int → Cycle → Prop} {previous : Int} {ms : List Mark}
    (h : EachCycle T previous ms) (hiff : ∀ before c, T before c → (R before c ↔ S before c)) :
    EachCycle R previous ms ↔ EachCycle S previous ms := by
  constructor
  · intro hR
    exact (eachCycle_and.mpr ⟨h, hR⟩).imp fun before c hc => (hiff before c hc.1).mp hc.2
  · intro hS
    exact (eachCycle_and.mpr ⟨h, hS⟩).imp fun before c hc => (hiff before c hc.1).mpr hc.2

/-- What does not depend on the mark before holds of the cycles alone. -/
theorem eachCycle_iff_forall {P : Cycle → Prop} {previous : Int} {ms : List Mark} :
    EachCycle (fun _ c => P c) previous ms ↔ ∀ c ∈ ms.filterMap (·.cycle?), P c := by
  induction ms generalizing previous with
  | nil => simp [EachCycle]
  | cons mark rest ih =>
    cases mark with
    | origin time => simpa [EachCycle, Mark.cycle?] using ih
    | cycle c => simp [EachCycle, Mark.cycle?, ih]

/-- A window starts just after the mark before it and ends with its cycle, also if that is
earlier. -/
theorem follows_marks (act : ω → ρ → ρ) (actions : List (Action σ ω))
    (e : Exporter (σ × Journal) ρ) :
    EachCycle (fun before c => c.window = .following before c.time) e.previousEnd
      (marks act actions e) := by
  induction actions generalizing e with
  | nil => trivial
  | cons action rest ih =>
    have hmoves := moves_apply act action e
    have hrest := ih (action.apply act e)
    rw [marks]
    generalize action.mark? e = mark at hmoves ⊢
    cases hmoves with
    | none h => rwa [h] at hrest
    | origin h => rwa [h] at hrest
    | cycle hwindow htime h =>
      rw [h, ← htime] at hrest
      rw [← htime] at hwindow
      exact ⟨hwindow, hrest⟩

/-! ## Ends of windows -/

/-- Whether an action gives the exporter a connection that it did not have. -/
def Action.attaches (action : Action σ ω) (e : Exporter (σ × Journal) ρ) : Bool :=
  match action with
  | .start => e.client.isNone && e.start.1.client.isSome
  | _ => false

theorem Action.attaches_iff (action : Action σ ω) (e : Exporter (σ × Journal) ρ) :
    action.attaches e = true ↔ action.mark? e = some (.origin e.now) := by
  cases action with
  | start =>
    simp only [attaches, mark?]
    split
    · next h => simp only [h]
    · next h => simp [h]
  | publish => simp [attaches, mark?]
  | _ => simp [attaches, mark?, cycle?]

/-- No action of a run lets the end of the previous window fall, but one that makes a
connection. -/
def EndsRise (act : ω → ρ → ρ) : List (Action σ ω) → Exporter (σ × Journal) ρ → Prop
  | [], _ => True
  | action :: rest, e =>
    (action.attaches e = false → e.previousEnd ≤ (action.apply act e).previousEnd) ∧
      EndsRise act rest (action.apply act e)

/-- **Ends of windows.** They never fall if no cycle is before the mark before it, and only
then. -/
theorem endsRise_iff (act : ω → ρ → ρ) (actions : List (Action σ ω))
    (e : Exporter (σ × Journal) ρ) :
    EndsRise act actions e ↔
      EachCycle (fun before c => before ≤ c.time) e.previousEnd (marks act actions e) := by
  induction actions generalizing e with
  | nil => exact Iff.rfl
  | cons action rest ih =>
    have hattaches := action.attaches_iff e
    have hmoves := moves_apply act action e
    rw [EndsRise, ih, marks]
    generalize action.mark? e = mark at hattaches hmoves ⊢
    cases hmoves with
    | none h =>
      rw [h]
      exact and_iff_right fun _ => Int.le_refl _
    | origin h =>
      rw [h, hattaches.mpr rfl]
      exact and_iff_right fun hkept => by cases hkept
    | cycle hwindow htime h =>
      have hnot : action.attaches e = false := by simpa using hattaches
      rw [h, ← htime, hnot]
      exact and_congr_left' (forall_prop_of_true rfl)

/-! ## Intervals -/

namespace Cycle

/-- No interval that the cycle handed over ends before it starts. -/
def Ordered (c : Cycle) : Prop := ∀ r ∈ c.written.flatten, r.point.interval.Ordered

instance (c : Cycle) : Decidable c.Ordered :=
  inferInstanceAs (Decidable (∀ r ∈ c.written.flatten, r.point.interval.Ordered))

/-- The cycle handed over a record whose interval has a start. -/
def HandsStart (c : Cycle) : Prop := ∃ r ∈ c.written.flatten, r.kind.requiresStart = true

instance (c : Cycle) : Decidable c.HandsStart :=
  inferInstanceAs (Decidable (∃ r ∈ c.written.flatten, r.kind.requiresStart = true))

/-- What the cycle handed over is about its window. -/
def Stamped (c : Cycle) : Prop :=
  ∀ r ∈ c.written.flatten, r.point.interval = .ofWindow c.window r.kind

/-- The start of a record is that of the window of its cycle, and so is the end. -/
theorem Stamped.start_iff {c : Cycle} (h : c.Stamped) {r : TimeSeries}
    (hr : r ∈ c.written.flatten) (start : Int) :
    start ∈ r.point.interval.start ↔ r.kind.requiresStart = true ∧ start = c.window.start := by
  rw [h r hr, TimeInterval.ofWindow]
  split
  · next hkind => simp [hkind, eq_comm]
  · next hkind => simp [hkind]

theorem Stamped.stop_eq {c : Cycle} (h : c.Stamped) {r : TimeSeries}
    (hr : r ∈ c.written.flatten) : r.point.interval.stop = c.window.stop := by
  rw [h r hr, TimeInterval.ofWindow]
  split <;> rfl

/-- The intervals of a cycle are in order if its window is, or if it hands over none. -/
theorem Stamped.ordered_iff {c : Cycle} (h : c.Stamped) :
    c.Ordered ↔ (c.HandsStart → c.window.start ≤ c.window.stop) := by
  constructor
  · rintro hordered ⟨r, hr, hkind⟩
    rw [← h.stop_eq hr]
    exact hordered r hr _ ((h.start_iff hr _).mpr ⟨hkind, rfl⟩)
  · intro hwindow r hr start hstart
    obtain ⟨hkind, rfl⟩ := (h.start_iff hr start).mp hstart
    rw [h.stop_eq hr]
    exact hwindow ⟨r, hr, hkind⟩

end Cycle

section Connected

variable {setup : ExporterSetup σ ρ} {e : Exporter (σ × Journal) ρ}

theorem Connected.stamped (h : Connected setup (fun _ => True) e) (act : ω → ρ → ρ)
    (actions : List (Action σ ω)) : ∀ c ∈ cycles act actions e, c.Stamped :=
  h.forall_cycles (fun _ _ _ => trivial)
    (fun _ _ _ hclient _ hr => interval_of_written hclient hr) act actions

/-- Each cycle of a run with its window, which follows the mark before it. -/
theorem Connected.stamped_marks (h : Connected setup (fun _ => True) e) (act : ω → ρ → ρ)
    (actions : List (Action σ ω)) :
    EachCycle (fun before c => c.window = .following before c.time ∧ c.Stamped) e.previousEnd
      (marks act actions e) := by
  refine eachCycle_and.mpr ⟨follows_marks act actions e, eachCycle_iff_forall.mpr ?_⟩
  rw [filterMap_marks]
  exact h.stamped act actions

/-- **Intervals.** They are in order if every cycle that hands one over is after the mark before it,
and only then. -/
theorem Connected.intervalsOrdered_iff (h : Connected setup (fun _ => True) e)
    (act : ω → ρ → ρ) (actions : List (Action σ ω)) :
    (∀ c ∈ cycles act actions e, c.Ordered) ↔
      EachCycle (fun before c => c.HandsStart → before < c.time) e.previousEnd
        (marks act actions e) := by
  rw [← filterMap_marks, ← eachCycle_iff_forall]
  refine (h.stamped_marks act actions).congr fun before c hc => ?_
  obtain ⟨hwindow, hstamped⟩ := hc
  rw [hstamped.ordered_iff, hwindow]
  exact Iff.rfl

end Connected

/-- Marks that are tiled have no cycle before the mark before it. -/
theorem TiledFrom.le_time {previous : Int} {ms : List Mark} (h : TiledFrom previous ms) :
    EachCycle (fun before c => before ≤ c.time) previous ms := by
  induction h with
  | nil => trivial
  | origin _ _ ih => exact ih
  | cycle _ hle _ ih => exact ⟨hle, ih⟩

/-- **The order of intervals**, wherever the clock goes.

The end of the previous window never falls, but where a connection is made, exactly if no cycle is
before the mark before it. All intervals that are handed over end no earlier than they start exactly
if each cycle that hands one over is after the mark before it. With a clock that never goes back the
ends do not fall, and an interval ends at most a millisecond before it starts. -/
theorem intervals_ordered {setup : ExporterSetup σ ρ} {client : Option (Client σ)} {now : Int}
    {s : σ} {source : ρ} {e : Exporter (σ × Journal) ρ}
    (hcreate : create setup.journaling (client.map (·.journaling)) now (s, []) source = .ok e)
    (act : ω → ρ → ρ) (actions : List (Action σ ω)) :
    (EndsRise act actions e ↔
      EachCycle (fun before c => before ≤ c.time) now (marks act actions e)) ∧
    ((∀ c ∈ cycles act actions e, c.Ordered) ↔
      EachCycle (fun before c => c.HandsStart → before < c.time) now (marks act actions e)) ∧
    ((∀ action ∈ actions, action.Forward) →
      EndsRise act actions e ∧
      ∀ c ∈ cycles act actions e, ∀ r ∈ c.written.flatten,
        ∀ start ∈ r.point.interval.start, start ≤ r.point.interval.stop + 1) := by
  obtain ⟨hprevious, hnow⟩ : e.previousEnd = now ∧ e.now = now := by
    obtain ⟨schedule, rfl⟩ := create_spec hcreate
    exact ⟨rfl, rfl⟩
  have hconnected : Connected setup (fun _ => True) e :=
    connected_create (fun _ _ => trivial) hcreate
  have hends := endsRise_iff act actions e
  have hintervals := hconnected.intervalsOrdered_iff act actions
  rw [hprevious] at hends hintervals
  refine ⟨hends, hintervals, fun hforward => ?_⟩
  have hle := (tiledFrom_marks act hforward (e := e) (by omega)).le_time
  rw [hprevious] at hle
  refine ⟨hends.mpr hle, ?_⟩
  -- a window that follows an earlier mark starts at most a millisecond after its end
  have hmarks := hconnected.stamped_marks act actions
  rw [hprevious] at hmarks
  have hwindows : EachCycle (fun _ c => c.window.start ≤ c.window.stop + 1) now
      (marks act actions e) :=
    (eachCycle_and.mpr ⟨hmarks, hle⟩).imp fun before c hc => by
      obtain ⟨⟨hwindow, -⟩, htime⟩ := hc
      rw [hwindow, BatchWindow.following]
      dsimp only
      omega
  rw [eachCycle_iff_forall, filterMap_marks] at hwindows
  intro c hc r hr start hstart
  have hstamped := hconnected.stamped act actions c hc
  obtain ⟨-, rfl⟩ := (hstamped.start_iff hr start).mp hstart
  rw [hstamped.stop_eq hr]
  exact hwindows c hc

/-- The wall time moves by some milliseconds, back if they are negative. -/
def shift (millis : Int) : Action MemoryBackend SessionCall := .advance millis .zero

/-- A cycle in the millisecond of another one, a stop and a connection at an earlier time, and after
a while a cycle. -/
def standingRun : List (Action MemoryBackend SessionCall) :=
  [shift 5, .publish, .publish, .stop, shift (-10), .start, shift 3, .publish]

theorem intervals_ordered_standing :
    ∃ e, create meteredSetup.journaling (some MemoryBackend.client.journaling) 10 ({}, [])
        (MeterSession.applyAll meteredCalls {}) = .ok e ∧
      EndsRise SessionCall.apply standingRun e ∧
      (¬ ∀ c ∈ cycles SessionCall.apply standingRun e, c.Ordered) := by
  have hcreate : create meteredSetup.journaling
      ((some MemoryBackend.client).map (·.journaling)) 10 ({}, [])
      (MeterSession.applyAll meteredCalls {}) = .ok _ := rfl
  obtain ⟨hends, hintervals, -⟩ := intervals_ordered hcreate SessionCall.apply standingRun
  refine ⟨_, hcreate, hends.mpr ?_, fun h => absurd (hintervals.mp h) ?_⟩
  · decide +kernel
  · decide +kernel

/-- Two cycles between which the wall time steps back. -/
def backwardRun : List (Action MemoryBackend SessionCall) :=
  [shift 5, .publish, shift (-10), .publish]

/-- A cycle in the millisecond in which its exporter was made hands over an interval that ends
before it starts. A clock that steps back takes the end of the previous window with it. -/
theorem intervals_disordered :
    ∃ e, create meteredSetup.journaling (some MemoryBackend.client.journaling) 10 ({}, [])
        (MeterSession.applyAll meteredCalls {}) = .ok e ∧
      ¬ (∀ c ∈ cycles SessionCall.apply [.publish] e, c.Ordered) ∧
      ¬ EndsRise SessionCall.apply backwardRun e := by
  have hcreate : create meteredSetup.journaling
      ((some MemoryBackend.client).map (·.journaling)) 10 ({}, [])
      (MeterSession.applyAll meteredCalls {}) = .ok _ := rfl
  refine ⟨_, hcreate, by decide +kernel, ?_⟩
  rw [endsRise_iff]
  decide +kernel

end Exporter
end Telemetry

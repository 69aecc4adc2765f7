import Mathlib.Data.Int.ConditionallyCompleteOrder
import Mathlib.Order.CompletePartialOrder
import Telemetry.Backend.Memory
import Telemetry.Proofs.Binary64.Exactness
import Telemetry.Proofs.Exporter.Runs

/-!
The windows of publish cycles over whole runs.

Proved here:

* `le_of_advance`: a clock that is moved by nothing negative does not go back;
* `moves_apply`: what an action does to the end of the previous window;
* `windows_tile`: the windows of a run follow each other without gap or overlap, and restart
  where a connection is made.
-/

namespace Telemetry

/-! ## Clocks -/

/-- A clock that is moved by nothing negative does not go back. -/
theorem Clock.le_of_advance {now millis later : Int} {seconds : Binary64} (hmillis : 0 ≤ millis)
    (hseconds : seconds.isNegative = false) (h : advance now millis seconds = .ok later) :
    now ≤ later := by
  have hthousand : 0 ≤ (1000 : Binary64).rank := by
    rw [show (1000 : Binary64) = .ofInt 1000 from rfl, Binary64.rank_ofInt (by decide)]
    exact Int.mul_nonneg (by decide) (Int.le_of_lt unitsPerOne_pos_int)
  have hproduct := Binary64.rank_mul_nonneg (Binary64.rank_nonneg_of_not_isNegative hseconds)
    hthousand
  obtain ⟨ms, hms, rfl⟩ := Fault.exists_of_map_eq_ok h
  have hle := Binary64.nonneg_of_toInteger hproduct hms
  omega

theorem Clock.advance_zero (now millis : Int) : advance now millis .zero = .ok (now + millis) := by
  have hthousand : (1000 : Binary64).isFinite = true :=
    Binary64.isFinite_ofInt (Binary64.natAbs_le_of_le_53 (by decide))
  have hzero := Binary64.rank_zero_mul hthousand
  have hfinite : (Binary64.zero * 1000).isFinite = true :=
    Binary64.isFinite_mul_fraction rfl hthousand (Nat.zero_le _)
  rw [advance, Binary64.toInteger_of_nonneg hfinite (by omega), hzero]
  simp [Except.map]

/-- The whole milliseconds of a window; there are none if it starts after its end. -/
def BatchWindow.instants (w : BatchWindow) : Set Int := Set.Icc w.start w.stop

namespace Exporter

variable {σ ρ ω : Type}

/-! ## Windows one after another -/

/-- A moment of a run that windows are counted from: the exporter was made or got a
connection, or published. -/
inductive Mark where
  | origin (time : Int)
  | cycle (cycle : Cycle)

namespace Mark

/-- The time that the next window follows. -/
def time : Mark → Int
  | .origin t => t
  | .cycle c => c.time

def cycle? : Mark → Option Cycle
  | .origin _ => none
  | .cycle c => some c

end Mark

/-- The mark of an action. -/
def Action.mark? (action : Action σ ω) (e : Exporter (σ × Journal) ρ) : Option Mark :=
  match action with
  | .start => if e.client.isNone && e.start.1.client.isSome then some (.origin e.now) else none
  | _ => (action.cycle? e).map .cycle

/-- The marks of a run. -/
def marks (act : ω → ρ → ρ) : List (Action σ ω) → Exporter (σ × Journal) ρ → List Mark
  | [], _ => []
  | action :: rest, e => (action.mark? e).toList ++ marks act rest (action.apply act e)

/-- Nothing moves the clock back. -/
def Action.Forward : Action σ ω → Prop
  | .advance millis seconds => 0 ≤ millis ∧ seconds.isNegative = false
  | _ => True

/-- What a mark does to the end of the previous window. -/
inductive Mark.Moves (e after : Exporter (σ × Journal) ρ) : Option Mark → Prop
  | none (h : after.previousEnd = e.previousEnd) : Moves e after none
  | origin (h : after.previousEnd = e.now) : Moves e after (some (.origin e.now))
  | cycle {c : Cycle} (hwindow : c.window = .following e.previousEnd e.now)
    (htime : c.time = e.now) (h : after.previousEnd = e.now) : Moves e after (some (.cycle c))

/-- **One action.** The previous end moves to the wall time with each mark and at no other time,
wherever the clock goes. -/
theorem moves_apply (act : ω → ρ → ρ) (action : Action σ ω) (e : Exporter (σ × Journal) ρ) :
    Mark.Moves e (action.apply act e) (action.mark? e) := by
  cases action with
  | start =>
    have hstarted := start_spec e
    simp only [Action.apply, Action.mark?]
    generalize e.start.1 = after at hstarted ⊢
    cases hstarted with
    | kept scheduler =>
      rw [if_neg (by cases e.client <;> simp)]
      exact .none rfl
    | refused hnone hconnect =>
      rw [if_neg (by simp [hnone])]
      exact .none rfl
    | attached hnone hconnect =>
      rw [if_pos (by simp [hnone])]
      exact .origin rfl
  | stop =>
    obtain ⟨backend, hstop, -⟩ := stop_spec e
    simp only [Action.apply, hstop]
    exact .none rfl
  | publish =>
    cases hclient : e.client with
    | none =>
      simp only [Action.apply, Action.mark?, Action.cycle?, publish_none hclient, hclient]
      exact .none rfl
    | some client =>
      obtain ⟨cache, lastResult, hpublish⟩ := publish_spec hclient
      simp only [Action.apply, Action.mark?, Action.cycle?, hpublish, hclient]
      exact .cycle rfl rfl rfl
  | advance millis seconds =>
    simp only [Action.apply, advance]
    cases Clock.advance e.now millis seconds with
    | error fault => exact .none rfl
    | ok later => exact .none rfl
  | service change => exact .none rfl
  | workers change => exact .none rfl
  | meters op => exact .none rfl

/-- The wall time does not go back, unless it is moved back. -/
theorem now_le_apply (act : ω → ρ → ρ) {action : Action σ ω} (hforward : action.Forward)
    (e : Exporter (σ × Journal) ρ) : e.now ≤ (action.apply act e).now := by
  cases action with
  | start =>
    have hstarted := start_spec e
    simp only [Action.apply]
    generalize e.start.1 = after at hstarted ⊢
    cases hstarted with
    | kept scheduler => exact Int.le_refl _
    | refused hnone hconnect => exact Int.le_refl _
    | attached hnone hconnect => exact Int.le_refl _
  | stop =>
    obtain ⟨backend, hstop, -⟩ := stop_spec e
    simp only [Action.apply, hstop]
    exact Int.le_refl _
  | publish =>
    cases hclient : e.client with
    | none =>
      simp only [Action.apply, publish_none hclient]
      exact Int.le_refl _
    | some client =>
      obtain ⟨cache, lastResult, hpublish⟩ := publish_spec hclient
      simp only [Action.apply, hpublish]
      exact Int.le_refl _
  | advance millis seconds =>
    simp only [Action.apply, advance]
    cases hadvance : Clock.advance e.now millis seconds with
    | error fault => exact Int.le_refl _
    | ok later => exact Clock.le_of_advance hforward.1 hforward.2 hadvance
  | service change => exact Int.le_refl _
  | workers change => exact Int.le_refl _
  | meters op => exact Int.le_refl _

/-- Marks whose windows follow each other from an end on. -/
inductive TiledFrom : Int → List Mark → Prop
  | nil {previous : Int} : TiledFrom previous []
  | origin {previous time : Int} {rest : List Mark} (hle : previous ≤ time)
    (tail : TiledFrom time rest) : TiledFrom previous (.origin time :: rest)
  | cycle {previous : Int} {c : Cycle} {rest : List Mark}
    (hwindow : c.window = .following previous c.time) (hle : previous ≤ c.time)
    (tail : TiledFrom c.time rest) : TiledFrom previous (.cycle c :: rest)

theorem tiledFrom_marks (act : ω → ρ → ρ) {actions : List (Action σ ω)}
    (hforward : ∀ action ∈ actions, action.Forward) {e : Exporter (σ × Journal) ρ}
    (hle : e.previousEnd ≤ e.now) : TiledFrom e.previousEnd (marks act actions e) := by
  induction actions generalizing e with
  | nil => exact .nil
  | cons action rest ih =>
    rw [List.forall_mem_cons] at hforward
    have hnow := now_le_apply act hforward.1 e
    have hmoves := moves_apply act action e
    rw [marks]
    generalize action.mark? e = mark at hmoves ⊢
    cases hmoves with
    | none h =>
      rw [← h]
      exact ih hforward.2 (by omega)
    | origin h =>
      have hrest := ih hforward.2 (show (action.apply act e).previousEnd ≤ _ by omega)
      rw [h] at hrest
      exact .origin hle hrest
    | cycle hwindow htime h =>
      have hrest := ih hforward.2 (show (action.apply act e).previousEnd ≤ _ by omega)
      rw [h, ← htime] at hrest
      exact .cycle (htime ▸ hwindow) (htime ▸ hle) hrest

section TiledFrom

variable {previous : Int} {ms : List Mark} (h : TiledFrom previous ms)

include h

/-- Every window starts after the end that the marks are tiled from. -/
theorem TiledFrom.lt_start : ∀ c, .cycle c ∈ ms → previous < c.window.start := by
  induction h with
  | nil => intro c hc; cases hc
  | origin hle _ ih =>
    intro c hc
    have := ih c (by simpa using hc)
    omega
  | cycle hwindow hle _ ih =>
    intro c hc
    rcases List.mem_cons.mp hc with hc | hc
    · cases hc
      rw [hwindow, BatchWindow.following]
      dsimp only
      omega
    · have := ih c hc
      omega

theorem TiledFrom.stop_eq : ∀ c, .cycle c ∈ ms → c.window.stop = c.time := by
  induction h with
  | nil => intro c hc; cases hc
  | origin _ _ ih => exact fun c hc => ih c (by simpa using hc)
  | cycle hwindow _ _ ih =>
    intro c hc
    rcases List.mem_cons.mp hc with hc | hc
    · cases hc
      rw [hwindow]
      rfl
    · exact ih c hc

theorem TiledFrom.start_eq {before : Mark} {c : Cycle} (hnext : [before, .cycle c] <:+: ms) :
    c.window.start = before.time + 1 := by
  -- a mark is what the marks after it are tiled from
  have hhead : ∀ {time : Int} {rest : List Mark}, TiledFrom time rest → [.cycle c] <+: rest →
      c.window.start = time + 1 := by
    intro time rest htail hprefix
    cases htail with
    | nil => simp at hprefix
    | origin => simp [List.cons_prefix_cons] at hprefix
    | cycle hwindow =>
      rw [List.cons_prefix_cons] at hprefix
      cases hprefix.1
      rw [hwindow]
      rfl
  induction h with
  | nil => simp at hnext
  | origin _ tail ih =>
    rcases List.infix_cons_iff.mp hnext with hfirst | hlater
    · rw [List.cons_prefix_cons] at hfirst
      rw [hfirst.1]
      exact hhead tail hfirst.2
    · exact ih hlater
  | cycle _ _ tail ih =>
    rcases List.infix_cons_iff.mp hnext with hfirst | hlater
    · rw [List.cons_prefix_cons] at hfirst
      rw [hfirst.1]
      exact hhead tail hfirst.2
    · exact ih hlater

theorem TiledFrom.disjoint : (ms.filterMap (·.cycle?)).Pairwise fun a b =>
    Disjoint a.window.instants b.window.instants := by
  induction h with
  | nil => exact .nil
  | origin _ _ ih => exact ih
  | @cycle previous c rest hwindow _ tail ih =>
    refine List.pairwise_cons.mpr ⟨fun later hlater => ?_, ih⟩
    have hstart : c.time < later.window.start := by
      obtain ⟨mark, hmark, hcycle⟩ := List.mem_filterMap.mp hlater
      cases mark with
      | origin => cases hcycle
      | cycle c' =>
        cases hcycle
        exact tail.lt_start _ hmark
    refine Set.disjoint_left.mpr fun instant hinstant hother => ?_
    have hstop : c.window.stop = c.time := by rw [hwindow]; rfl
    have := hinstant.2
    have := hother.1
    omega

end TiledFrom

/-! ## Whole runs -/

theorem filterMap_marks (act : ω → ρ → ρ) (actions : List (Action σ ω))
    (e : Exporter (σ × Journal) ρ) :
    (marks act actions e).filterMap (·.cycle?) = cycles act actions e := by
  induction actions generalizing e with
  | nil => rfl
  | cons action rest ih =>
    rw [marks, cycles, List.filterMap_append, ih]
    congr 1
    cases action with
    | start =>
      simp only [Action.mark?, Action.cycle?]
      split <;> rfl
    | publish =>
      cases hclient : e.client <;>
        simp [Action.mark?, Action.cycle?, hclient, Mark.cycle?]
    | stop => rfl
    | advance => rfl
    | service => rfl
    | workers => rfl
    | meters => rfl

/-- The windows of cycles, between the marks of their run.

- `cycles_eq`: the marks are of these cycles.
- `tiles`: a window after another one starts a millisecond after its end.
- `first`: the first window after the exporter was made or got a connection starts a
  millisecond after that.
- `ends`: a window ends at the wall time of its cycle.
- `stamped`: what a cycle writes is about its window.
- `disjoint`: no instant is in two windows. -/
structure Tiling (ms : List Mark) (cycles : List Cycle) : Prop where
  cycles_eq : ms.filterMap (·.cycle?) = cycles
  tiles : ∀ a b, [.cycle a, .cycle b] <:+: ms → b.window.start = a.window.stop + 1
  first : ∀ time c, [.origin time, .cycle c] <:+: ms → c.window.start = time + 1
  ends : ∀ c ∈ cycles, c.window.stop = c.time
  stamped : ∀ c ∈ cycles, ∀ r ∈ c.written.flatten,
    r.point.interval = .ofWindow c.window r.kind
  disjoint : cycles.Pairwise fun a b => Disjoint a.window.instants b.window.instants

/-- **Windows tile time**, whatever an exporter goes through after it was made. -/
theorem windows_tile {setup : ExporterSetup σ ρ} {client : Option (Client σ)} {now : Int}
    {s : σ} {source : ρ} {e : Exporter (σ × Journal) ρ}
    (hcreate : create setup.journaling (client.map (·.journaling)) now (s, []) source = .ok e)
    (act : ω → ρ → ρ) {actions : List (Action σ ω)}
    (hforward : ∀ action ∈ actions, action.Forward) :
    Tiling (.origin now :: marks act actions e) (cycles act actions e) := by
  obtain ⟨hprevious, hnow⟩ : e.previousEnd = now ∧ e.now = now := by
    obtain ⟨schedule, rfl⟩ := create_spec hcreate
    exact ⟨rfl, rfl⟩
  have htiled : TiledFrom now (.origin now :: marks act actions e) := by
    have hmarks := tiledFrom_marks act hforward (e := e) (by omega)
    rw [hprevious] at hmarks
    exact .origin (Int.le_refl now) hmarks
  have hcycles : (.origin now :: marks act actions e).filterMap (·.cycle?) =
      cycles act actions e := filterMap_marks act actions e
  have hstop : ∀ c, .cycle c ∈ Mark.origin now :: marks act actions e →
      c.window.stop = c.time := htiled.stop_eq
  refine ⟨hcycles, fun a b hnext => ?_, fun time c hnext => htiled.start_eq hnext,
    fun c hc => ?_, ?_, hcycles ▸ htiled.disjoint⟩
  · rw [hstop a (hnext.subset (List.mem_cons_self ..))]
    exact htiled.start_eq hnext
  · rw [← hcycles] at hc
    obtain ⟨mark, hmark, hcycle⟩ := List.mem_filterMap.mp hc
    cases mark with
    | origin => cases hcycle
    | cycle c' =>
      cases hcycle
      exact hstop _ hmark
  · have hconnected : Connected setup (fun _ => True) e :=
      connected_create (fun _ _ => trivial) hcreate
    exact hconnected.forall_cycles (fun _ _ _ => trivial)
      (fun _ _ _ hclient _ hr => interval_of_written hclient hr) act actions

/-- A connection that can always be made again, and meters that never report anything. -/
def quietSetup : ExporterSetup MemoryBackend Unit where
  config :=
    { projectId := .text "p", stepSeconds := .int 60, timeoutSeconds := .int 30 }
  connect s := (.ok MemoryBackend.client, s)
  source s := (.ok [], s)

def tick (millis : Int) : Action MemoryBackend Unit := .advance millis .zero

theorem apply_tick (millis : Int) (e : Exporter (MemoryBackend × Journal) Unit) :
    (tick millis).apply (fun _ s => s) e = { e with now := e.now + millis } := by
  rw [tick, Action.apply, advance, Clock.advance_zero]
  rfl

/-- Two cycles, one without a connection, and after a restart one that covers no time and one
more. -/
def restartedRun : List (Action MemoryBackend Unit) :=
  [tick 5, .publish, tick 5, .publish, .stop, tick 5, .publish, .start, .publish, tick 7, .publish]

theorem windows_tile_restarted :
    ∃ e, create quietSetup.journaling (some MemoryBackend.client.journaling) 10 ({}, []) () =
        .ok e ∧
      Tiling (.origin 10 :: marks (fun _ s => s) restartedRun e)
        (cycles (fun _ s => s) restartedRun e) ∧
      (cycles (fun _ s => s) restartedRun e).map (·.window) =
        [⟨11, 15⟩, ⟨16, 20⟩, ⟨26, 25⟩, ⟨26, 32⟩] := by
  have hcreate : create quietSetup.journaling
      ((some MemoryBackend.client).map (·.journaling)) 10 ({}, []) () = .ok _ := rfl
  refine ⟨_, hcreate, windows_tile hcreate _ ?_, ?_⟩
  · simp [restartedRun, tick, Action.Forward]
    decide
  · simp only [restartedRun, cycles, apply_tick]
    rfl

end Exporter
end Telemetry

import Mathlib.Logic.Function.Iterate
import Telemetry.Proofs.Backend.CacheRuns

/-!
Concurrent lookups of one descriptor cache. What a lookup does between two of its stages is one
step: it looks at the flag, enters the section in which the cache is filled, lists, takes the
listing over, leaves the section, reads the cache, creates its descriptor or settles its kind.
Any number of lookups take their steps in any order, and the service goes on by itself.

Proved here:

* `exists_alone`: the steps of a lookup that no other comes between are `DescriptorCache.ensure`;
* `advance_spec`: all that one step can do;
* `InOrder.apply`: every step keeps the section to one lookup, and the cache closed to readers
  until the listing is done;
* `InOrder.exists_returned`: no lookup has to wait forever;
* `run_coherent`: hence lookups of one type agree, whatever the order of their steps.
-/

namespace Telemetry.DescriptorCache

variable {ι σ : Type}

/-! ## Steps -/

/-- How a lookup came by the kind that it returned: it was in the cache, it was settled after
the creation, or it is the one asked for, since the creation was refused. -/
inductive Way where
  | hit | settled | refused
  deriving DecidableEq, Repr

/-- Where a lookup is.

- `called`, `queued`: before and after it saw that the cache is not filled.
- `filling`, `listed`, `filled`: inside the section in which the cache is filled.
- `ready`, `missing`, `created`: before it reads the cache, creates its descriptor, and settles
  its kind.
- `returned`, `failed`: it is over. -/
inductive Stage where
  | called
  | queued
  | filling
  | listed (listing : List (Value × MetricKind))
  | filled
  | ready
  | missing
  | created
  | returned (kind : MetricKind) (way : Way)
  | failed (fault : Fault)

/-- What lookups share: the cache, who is inside the section in which it is filled, the service,
the calls that were made to it, and the notices. -/
structure Shared (ι σ : Type) where
  cache : DescriptorCache
  holder : Option ι
  backend : σ
  calls : List ServiceCall
  notices : List Notice

section Steps

variable (client : Client σ) (scope : DescriptorScope)

/-- The next step of a lookup, if it has one and does not wait for the section. -/
def Stage.advance (d : MetricDescriptor) (caller : ι) :
    Stage → Shared ι σ → Stage × Shared ι σ
  | .called, k => (if k.cache.populated then .ready else .queued, k)
  | .queued, k =>
    if k.holder.isSome then (.queued, k)
    else if k.cache.populated then (.ready, k)
    else (.filling, { k with holder := some caller })
  | .filling, k =>
    match client.list scope.project scope.filter k.backend with
    | (.error fault, backend) =>
      (.filled, { k with
        backend, calls := k.calls ++ [.listing (.error fault)]
        notices := k.notices ++ [.descriptorsNotListed scope.project fault] })
    | (.ok listing, backend) =>
      (.listed listing, { k with backend, calls := k.calls ++ [.listing (.ok listing)] })
  | .listed listing, k =>
    match k.cache.learn listing with
    | (.error fault, cache) => (.failed fault, { k with cache, holder := none })
    | (.ok _, cache) => (.filled, { k with cache })
  | .filled, k => (.ready, { k with cache := { k.cache with populated := true }, holder := none })
  | .ready, k =>
    match k.cache.get? d.type with
    | some kind => (.returned kind .hit, k)
    | none => (.missing, k)
  | .missing, k =>
    match client.create scope.project d k.backend with
    | (.error fault, backend) =>
      (.returned d.kind .refused, { k with
        backend, calls := k.calls ++ [.creation d (.error fault)]
        notices := k.notices ++ [.descriptorNotCreated d.type fault] })
    | (.ok _, backend) =>
      (.created, { k with backend, calls := k.calls ++ [.creation d (.ok ())] })
  | .created, k =>
    let settled := k.cache.settle d.type d.kind
    (.returned settled.1 .settled, { k with cache := settled.2 })
  | stage, k => (stage, k)

/-- Lookups under way. -/
structure Concurrent (ι σ : Type) where
  stage : ι → Stage
  shared : Shared ι σ

/-- All lookups are called on an empty cache. -/
def Concurrent.start (s : σ) : Concurrent ι σ := ⟨fun _ => .called, ⟨.empty, none, s, [], []⟩⟩

/-- What happens: a lookup takes a step, or the service goes on by itself. -/
inductive Move (ι σ : Type) where
  | step (caller : ι)
  | service (change : σ → σ)

variable [DecidableEq ι] (request : ι → MetricDescriptor)

def Move.apply : Move ι σ → Concurrent ι σ → Concurrent ι σ
  | .step caller, w =>
    let next := (w.stage caller).advance client scope (request caller) caller w.shared
    ⟨Function.update w.stage caller next.1, next.2⟩
  | .service change, w => { w with shared.backend := change w.shared.backend }

/-- The lookups after moves in turn. -/
def runMoves (moves : List (Move ι σ)) (w : Concurrent ι σ) : Concurrent ι σ :=
  moves.foldl (fun w move => move.apply client scope request w) w

end Steps

namespace Stage

/-- What a lookup that is over came to. -/
def outcome? : Stage → Option (Except Fault MetricKind)
  | .returned kind _ => some (.ok kind)
  | .failed fault => some (.error fault)
  | _ => none

/-- Whether a lookup is inside the section in which the cache is filled. -/
def inside : Stage → Bool
  | .filling | .listed _ | .filled => true
  | _ => false

/-- Whether a lookup reads the cache next, or has read it. -/
def reads : Stage → Bool
  | .ready | .missing | .created | .returned .. => true
  | _ => false

/-- The kind that a lookup returned from the cache, be it found or settled there. -/
def agreed? : Stage → Option MetricKind
  | .returned kind .hit | .returned kind .settled => some kind
  | _ => none

end Stage

/-! ## A lookup alone -/

section Alone

variable (client : Client σ) (scope : DescriptorScope) (d : MetricDescriptor) (caller : ι)

/-- A lookup and what it shares after some of its steps. -/
def advanceBy (n : Nat) (stage : Stage) (k : Shared ι σ) : Stage × Shared ι σ :=
  (fun p => p.1.advance client scope d caller p.2)^[n] (stage, k)

theorem advanceBy_trans {n m : Nat} {stage mid last : Stage} {k k' k'' : Shared ι σ}
    (h : advanceBy client scope d caller n stage k = (mid, k'))
    (h' : advanceBy client scope d caller m mid k' = (last, k'')) :
    advanceBy client scope d caller (m + n) stage k = (last, k'') := by
  rw [advanceBy, Function.iterate_add_apply]
  exact (congrArg _ h).trans h'

theorem exists_advanceBy_ready {k : Shared ι σ} (hfree : k.holder = none) :
    let fill := populate client scope k.cache k.backend
    ∃ n calls, advanceBy client scope d caller n .called k =
      (match fill.outcome with
        | .ok _ => .ready
        | .error fault => .failed fault,
        ⟨fill.cache, none, fill.backend, calls, k.notices ++ fill.notices⟩) := by
  obtain ⟨cache, holder, backend, calls, notices⟩ := k
  cases hfree
  cases hpop : cache.populated with
  | true =>
    rw [populate_of_populated client scope hpop]
    exact ⟨1, calls, by simp [advanceBy, Stage.advance, hpop]⟩
  | false =>
    cases hlist : client.list scope.project scope.filter backend with
    | mk outcome backend' =>
      cases outcome with
      | error fault =>
        rw [populate_of_failed client scope hpop hlist]
        exact ⟨4, calls ++ [.listing (.error fault)],
          by simp [advanceBy, Stage.advance, hpop, hlist]⟩
      | ok listing =>
        cases hlearn : cache.learn listing with
        | mk outcome learned =>
          cases outcome with
          | error fault =>
            exact ⟨4, calls ++ [.listing (.ok listing)],
              by simp [advanceBy, Stage.advance, populate, hpop, hlist, hlearn]⟩
          | ok _ =>
            exact ⟨5, calls ++ [.listing (.ok listing)],
              by simp [advanceBy, Stage.advance, populate, hpop, hlist, hlearn]⟩

theorem exists_advanceBy_returned (k : Shared ι σ) :
    let look := lookUp (create client scope d) d.type k.cache k.backend
    ∃ n calls kind way, look.outcome = .ok kind ∧
      advanceBy client scope d caller n .ready k =
        (.returned kind way,
          ⟨look.cache, k.holder, look.backend, calls, k.notices ++ look.notices⟩) := by
  obtain ⟨cache, holder, backend, calls, notices⟩ := k
  cases hget : cache.get? d.type with
  | some kind =>
    exact ⟨1, calls, kind, .hit, by simp [lookUp, hget],
      by simp [advanceBy, Stage.advance, lookUp, hget]⟩
  | none =>
    cases hcreate : client.create scope.project d backend with
    | mk outcome backend' =>
      cases outcome with
      | error fault =>
        exact ⟨2, calls ++ [.creation d (.error fault)], d.kind, .refused,
          by simp [lookUp, create, notCreated, hget, hcreate],
          by simp [advanceBy, Stage.advance, lookUp, create, notCreated, hget, hcreate]⟩
      | ok _ =>
        exact ⟨3, calls ++ [.creation d (.ok ())], (cache.settle d.type d.kind).1, .settled,
          by simp [lookUp, create, hget, hcreate],
          by simp [advanceBy, Stage.advance, lookUp, create, hget, hcreate]⟩

/-- **A lookup that no other comes between** is `ensure`. -/
theorem exists_alone {k : Shared ι σ} (hfree : k.holder = none) :
    let step := ensure client scope d k.cache k.backend
    ∃ n stage calls, stage.outcome? = some step.outcome ∧
      advanceBy client scope d caller n .called k =
        (stage, ⟨step.cache, none, step.backend, calls, k.notices ++ step.notices⟩) := by
  obtain ⟨n, calls, hready⟩ := exists_advanceBy_ready client scope d caller hfree
  cases houtcome : (populate client scope k.cache k.backend).outcome with
  | error fault =>
    simp only [houtcome] at hready
    refine ⟨n, .failed fault, calls, ?_, hready.trans ?_⟩
    · simp [ensure, CacheStep.andThen, houtcome, Stage.outcome?]
    · simp [ensure, CacheStep.andThen, houtcome]
  | ok _ =>
    simp only [houtcome] at hready
    obtain ⟨m, calls', kind, way, hkind, hreturned⟩ :=
      exists_advanceBy_returned client scope d caller _
    have hboth := advanceBy_trans client scope d caller hready hreturned
    refine ⟨m + n, .returned kind way, calls', ?_, hboth.trans ?_⟩
    · simp only [ensure, CacheStep.andThen, houtcome, Stage.outcome?, hkind]
    · simp only [ensure, CacheStep.andThen, houtcome, List.append_assoc]

end Alone

/-! ## What one step can do -/

/-- What a step of a lookup comes to. -/
inductive Stepped (d : MetricDescriptor) (caller : ι) :
    Stage → Shared ι σ → Stage → Shared ι σ → Prop
  | rests {stage : Stage} {k : Shared ι σ} : Stepped d caller stage k stage k
  | passes {k : Shared ι σ} (h : k.cache.populated = true) : Stepped d caller .called k .ready k
  | queues {k : Shared ι σ} (h : k.cache.populated = false) : Stepped d caller .called k .queued k
  | isSpared {k : Shared ι σ} (h : k.cache.populated = true) : Stepped d caller .queued k .ready k
  | enters {k : Shared ι σ} (hfree : k.holder = none) (h : k.cache.populated = false) :
    Stepped d caller .queued k .filling { k with holder := some caller }
  | listsNot {k : Shared ι σ} (fault : Fault) (backend : σ) (notices : List Notice) :
    Stepped d caller .filling k .filled
      { k with backend, notices, calls := k.calls ++ [.listing (.error fault)] }
  | lists {k : Shared ι σ} {listing : List (Value × MetricKind)}
    (hkeys : ∀ e ∈ listing, e.1.key?.isSome = true) (backend : σ) :
    Stepped d caller .filling k (.listed listing)
      { k with backend, calls := k.calls ++ [.listing (.ok listing)] }
  | learnsNot {k : Shared ι σ} {listing : List (Value × MetricKind)} {fault : Fault}
    {learned : DescriptorCache} (h : k.cache.learn listing = (.error fault, learned)) :
    Stepped d caller (.listed listing) k (.failed fault)
      { k with cache := learned, holder := none }
  | learns {k : Shared ι σ} {listing : List (Value × MetricKind)} {learned : DescriptorCache}
    (h : k.cache.learn listing = (.ok (), learned)) :
    Stepped d caller (.listed listing) k .filled { k with cache := learned }
  | leaves {k : Shared ι σ} :
    Stepped d caller .filled k .ready
      { k with cache := { k.cache with populated := true }, holder := none }
  | finds {k : Shared ι σ} {kind : MetricKind} (h : k.cache.get? d.type = some kind) :
    Stepped d caller .ready k (.returned kind .hit) k
  | misses {k : Shared ι σ} (h : k.cache.get? d.type = none) :
    Stepped d caller .ready k .missing k
  | createsNot {k : Shared ι σ} (fault : Fault) (backend : σ) (notices : List Notice) :
    Stepped d caller .missing k (.returned d.kind .refused)
      { k with backend, notices, calls := k.calls ++ [.creation d (.error fault)] }
  | creates {k : Shared ι σ} (backend : σ) :
    Stepped d caller .missing k .created
      { k with backend, calls := k.calls ++ [.creation d (.ok ())] }
  | settles {k : Shared ι σ} :
    Stepped d caller .created k (.returned (k.cache.settle d.type d.kind).1 .settled)
      { k with cache := (k.cache.settle d.type d.kind).2 }

theorem advance_spec {client : Client σ} (hkeys : client.ListsKeys) (scope : DescriptorScope)
    (d : MetricDescriptor) (caller : ι) (stage : Stage) (k : Shared ι σ) :
    Stepped d caller stage k (stage.advance client scope d caller k).1
      (stage.advance client scope d caller k).2 := by
  cases stage with
  | called =>
    cases hpop : k.cache.populated with
    | true => simpa only [Stage.advance, hpop] using .passes hpop
    | false => simpa only [Stage.advance, hpop] using .queues hpop
  | queued =>
    rw [Stage.advance]
    split
    · exact .rests
    · next hholder =>
      split
      · next hpop => exact .isSpared hpop
      · next hpop =>
        exact .enters (Option.not_isSome_iff_eq_none.mp hholder) (Bool.not_eq_true _ ▸ hpop)
  | filling =>
    rw [Stage.advance]
    split
    · exact .listsNot _ _ _
    · next hlist => exact .lists (hkeys _ _ _ _ _ hlist) _
  | listed listing =>
    rw [Stage.advance]
    split
    · next hlearn => exact .learnsNot hlearn
    · next hlearn => exact .learns hlearn
  | filled => exact .leaves
  | ready =>
    rw [Stage.advance]
    split
    · next hget => exact .finds hget
    · next hget => exact .misses hget
  | missing =>
    rw [Stage.advance]
    split
    · exact .createsNot _ _ _
    · exact .creates _
  | created => exact .settles
  | returned => exact .rests
  | failed => exact .rests

/-! ## What is kept -/

/-- Nothing was listed yet, and nothing is known. -/
def Shared.Untouched (k : Shared ι σ) : Prop :=
  k.calls.filter (·.isListing) = [] ∧ ∀ key, k.cache.verified.get? key = none

/-- There was one listing, and it failed or is taken over: every listed type is known, under the
last kind that it is listed with. -/
def Shared.Listed (k : Shared ι σ) : Prop :=
  ∃ outcome, k.calls.filter (·.isListing) = [.listing outcome] ∧
    ∀ listing, outcome = .ok listing → ∀ key kind, lastListed? key listing = some kind →
      k.cache.verified.get? key = some kind

/-- What a lookup at a stage relies on. -/
def Stage.Fits (d : MetricDescriptor) (k : Shared ι σ) : Stage → Prop
  | .called | .queued => True
  | .filling => k.cache.populated = false ∧ k.Untouched
  | .listed listing =>
    k.cache.populated = false ∧ k.calls.filter (·.isListing) = [.listing (.ok listing)] ∧
      (∀ key, k.cache.verified.get? key = none) ∧ ∀ e ∈ listing, e.1.key?.isSome = true
  | .filled => k.cache.populated = false ∧ k.Listed
  | .ready | .missing | .created => k.cache.populated = true
  | .returned kind .refused => k.cache.populated = true ∧ kind = d.kind
  | .returned kind .hit | .returned kind .settled =>
    k.cache.populated = true ∧ k.cache.get? d.type = some kind
  | .failed _ => False

/-- What is shared is in order.

- `untouched`: whoever enters the section is the first to fill the cache.
- `listed`: after that nobody enters, and the listing is done. -/
structure Shared.InOrder (k : Shared ι σ) : Prop where
  untouched : k.cache.populated = false → k.holder = none → k.Untouched
  listed : k.cache.populated = true → k.holder = none ∧ k.Listed

/-- A lookup is where it may be: inside the section exactly if it holds it, and with what it
relies on. -/
structure Stage.Placed (d : MetricDescriptor) (caller : ι) (k : Shared ι σ) (stage : Stage) :
    Prop where
  inside_iff : stage.inside = true ↔ k.holder = some caller
  fits : stage.Fits d k

theorem Stage.Placed.service {d : MetricDescriptor} {caller : ι} {k : Shared ι σ} {stage : Stage}
    (h : stage.Placed d caller k) (backend : σ) : stage.Placed d caller { k with backend } := by
  refine ⟨h.inside_iff, ?_⟩
  have hfits := h.fits
  cases stage with
  | returned kind way => cases way <;> exact hfits
  | _ => exact hfits

theorem Shared.InOrder.of_listed {k : Shared ι σ} (hpop : k.cache.populated = true)
    (hfree : k.holder = none) (h : k.Listed) : k.InOrder where
  untouched hnot := by rw [hpop] at hnot; cases hnot
  listed _ := ⟨hfree, h⟩

theorem Shared.InOrder.of_held {k : Shared ι σ} (hpop : k.cache.populated = false) {caller : ι}
    (hheld : k.holder = some caller) : k.InOrder where
  untouched _ hfree := by rw [hheld] at hfree; cases hfree
  listed h := by rw [hpop] at h; cases h

theorem Shared.Listed.mono {k k' : Shared ι σ} (h : k.Listed)
    (hcalls : k'.calls.filter (·.isListing) = k.calls.filter (·.isListing))
    (hextends : Extends k.cache k'.cache) : k'.Listed := by
  obtain ⟨outcome, honly, hknown⟩ := h
  exact ⟨outcome, hcalls.trans honly, fun listing hok key kind hlisted =>
    hextends key kind (hknown listing hok key kind hlisted)⟩

theorem Shared.InOrder.later {k k' : Shared ι σ} (h : k.InOrder)
    (hpop : k.cache.populated = true) (hpop' : k'.cache.populated = true)
    (hholder : k'.holder = k.holder)
    (hcalls : k'.calls.filter (·.isListing) = k.calls.filter (·.isListing))
    (hextends : Extends k.cache k'.cache) : k'.InOrder :=
  .of_listed hpop' (hholder.trans (h.listed hpop).1) ((h.listed hpop).2.mono hcalls hextends)

section Stepped

variable {d : MetricDescriptor} {caller : ι} {stage stage' : Stage} {k k' : Shared ι σ}
  (h : Stepped d caller stage k stage' k') (hplaced : stage.Placed d caller k)

include h

/-- The section is taken by the caller if it is free, and left by the caller. -/
theorem Stepped.holder_eq : k'.holder = k.holder ∨
    k.holder = none ∧ k'.holder = some caller ∨ stage.inside = true ∧ k'.holder = none := by
  cases h with
  | enters hfree => exact Or.inr (Or.inl ⟨hfree, rfl⟩)
  | learnsNot => exact Or.inr (Or.inr ⟨rfl, rfl⟩)
  | leaves => exact Or.inr (Or.inr ⟨rfl, rfl⟩)
  | _ => exact Or.inl rfl

theorem Stepped.eq_of_returned {kind : MetricKind} {way : Way}
    (hreturned : stage = .returned kind way) : stage' = .returned kind way := by
  cases h with
  | rests => exact hreturned
  | _ => cases hreturned

include hplaced

theorem Stepped.extends : Extends k.cache k'.cache := by
  have hfits := hplaced.fits
  cases h with
  | learnsNot hlearn =>
    intro key kind hknown
    rw [hfits.2.2.1 key] at hknown
    cases hknown
  | learns hlearn =>
    intro key kind hknown
    rw [hfits.2.2.1 key] at hknown
    cases hknown
  | settles => exact extends_settle _ _ _
  | _ => exact Extends.refl _

theorem Stepped.populated (hpop : k.cache.populated = true) : k'.cache.populated = true := by
  have hfits := hplaced.fits
  cases h with
  | learnsNot hlearn =>
    rw [hfits.1] at hpop
    cases hpop
  | learns hlearn =>
    rw [hfits.1] at hpop
    cases hpop
  | leaves => rfl
  | _ => exact hpop

variable (hk : k.InOrder)

include hk

/-- While another lookup is inside the section, nothing that is shared changes. -/
theorem Stepped.eq_of_held {other : ι} (hheld : k.holder = some other) (hne : other ≠ caller) :
    k' = k := by
  have houtside : stage.inside = false := by
    rw [Bool.eq_false_iff, Ne, hplaced.inside_iff, hheld]
    exact fun heq => hne (Option.some.inj heq)
  have hnot : k.cache.populated = false := by
    rw [Bool.eq_false_iff]
    intro hpop
    rw [(hk.listed hpop).1] at hheld
    cases hheld
  have hfits := hplaced.fits
  cases h with
  | rests | passes | queues | isSpared | finds | misses => rfl
  | enters hfree =>
    rw [hfree] at hheld
    cases hheld
  | listsNot | lists | learnsNot | learns | leaves => cases houtside
  | createsNot | creates | settles =>
    rw [show k.cache.populated = true from hfits] at hnot
    cases hnot

/-- **A step keeps the lookup that takes it in order**, and what is shared. -/
theorem Stepped.own : k'.InOrder ∧ stage'.Placed d caller k' := by
  have hinside := hplaced.inside_iff
  have hfits := hplaced.fits
  cases h with
  | rests => exact ⟨hk, hplaced⟩
  | passes hpop => exact ⟨hk, hinside, hpop⟩
  | queues => exact ⟨hk, hinside, trivial⟩
  | isSpared hpop => exact ⟨hk, hinside, hpop⟩
  | enters hfree hnot =>
    exact ⟨.of_held hnot rfl, iff_of_true rfl rfl, hnot, hk.untouched hnot hfree⟩
  | listsNot fault =>
    obtain ⟨hnot, huntouched⟩ := hfits
    refine ⟨.of_held hnot (hinside.mp rfl), hinside, hnot, .error fault, ?_, nofun⟩
    rw [List.filter_append, huntouched.1]
    rfl
  | lists hkeys =>
    obtain ⟨hnot, huntouched⟩ := hfits
    refine ⟨.of_held hnot (hinside.mp rfl), hinside, hnot, ?_, huntouched.2, hkeys⟩
    rw [List.filter_append, huntouched.1]
    rfl
  | @learnsNot _ listing _ _ hlearn =>
    have hok := (learn_isOk listing k.cache).1
    rw [hlearn, List.all_eq_true.mpr hfits.2.2.2] at hok
    cases hok
  | @learns _ listing learned hlearn =>
    obtain ⟨hnot, honly, -, hkeys⟩ := hfits
    have hsame := (learn_isOk listing k.cache).2
    rw [hlearn, hnot] at hsame
    refine ⟨.of_held hsame (hinside.mp rfl), hinside, hsame, .ok listing, honly, ?_⟩
    rintro _ ⟨⟩ key kind hlisted
    rw [get?_learn hlearn key, List.takeWhile_eq_self_iff.mpr hkeys, hlisted]
    rfl
  | leaves => exact ⟨.of_listed rfl rfl hfits.2, iff_of_false nofun nofun, rfl⟩
  | finds hget => exact ⟨hk, hinside, hfits, hget⟩
  | misses => exact ⟨hk, hinside, hfits⟩
  | createsNot =>
    exact ⟨hk.later hfits hfits rfl (by simp [ServiceCall.isListing]) (Extends.refl _), hinside,
      hfits, rfl⟩
  | creates =>
    exact ⟨hk.later hfits hfits rfl (by simp [ServiceCall.isListing]) (Extends.refl _), hinside,
      hfits⟩
  | settles =>
    exact ⟨hk.later hfits hfits rfl rfl (extends_settle _ _ _), hinside, hfits,
      get?_settle _ _ _⟩

theorem Stepped.other {d' : MetricDescriptor} {other : ι} {stage' : Stage} (hne : other ≠ caller)
    (hother : stage'.Placed d' other k) : stage'.Placed d' other k' := by
  by_cases hheld : k.holder = some other
  · rwa [h.eq_of_held hplaced hk hheld hne]
  have houtside : ¬ stage'.inside = true := fun hinside => hheld (hother.inside_iff.mp hinside)
  have hheld' : k'.holder ≠ some other := by
    rcases h.holder_eq with heq | ⟨-, heq⟩ | ⟨-, heq⟩
    · rwa [heq]
    · rw [heq]
      exact fun hsame => hne (Option.some.inj hsame).symm
    · rw [heq]
      exact nofun
  refine ⟨iff_of_false houtside hheld', ?_⟩
  have hpop := h.populated hplaced
  have hfits := hother.fits
  cases stage' with
  | called | queued => trivial
  | filling | listed | filled => exact absurd rfl houtside
  | ready | missing | created => exact hpop hfits
  | returned kind way =>
    cases way with
    | refused => exact ⟨hpop hfits.1, hfits.2⟩
    | hit | settled => exact ⟨hpop hfits.1, h.extends hplaced _ _ hfits.2⟩
  | failed => exact hfits.elim

end Stepped

/-! ## Runs -/

/-- What lookups share is in order, and so is each of them. -/
structure Concurrent.InOrder (request : ι → MetricDescriptor) (w : Concurrent ι σ) : Prop where
  shared : w.shared.InOrder
  placed : ∀ i, (w.stage i).Placed (request i) i w.shared

theorem Concurrent.inOrder_start (request : ι → MetricDescriptor) (s : σ) :
    (start s : Concurrent ι σ).InOrder request where
  shared := ⟨fun _ _ => ⟨rfl, fun _ => rfl⟩, nofun⟩
  placed _ := ⟨iff_of_false nofun nofun, trivial⟩

/-- What lookups came to, as seen at a later time.

- `returned`: a lookup that returned stays so.
- `known`: what is known stays known. -/
structure Concurrent.Before (w later : Concurrent ι σ) : Prop where
  returned : ∀ i kind way, w.stage i = .returned kind way → later.stage i = .returned kind way
  known : Extends w.shared.cache later.shared.cache

theorem Concurrent.Before.refl (w : Concurrent ι σ) : w.Before w :=
  ⟨fun _ _ _ h => h, Extends.refl _⟩

theorem Concurrent.Before.trans {a b c : Concurrent ι σ} (hab : a.Before b) (hbc : b.Before c) :
    a.Before c :=
  ⟨fun i kind way h => hbc.returned i kind way (hab.returned i kind way h),
    hab.known.trans hbc.known⟩

section Runs

variable [DecidableEq ι] {client : Client σ} (hkeys : client.ListsKeys) (scope : DescriptorScope)
  {request : ι → MetricDescriptor} {w : Concurrent ι σ} (h : w.InOrder request)

include hkeys h

/-- **Every move keeps the order**, and takes nothing back. -/
theorem Concurrent.InOrder.apply (move : Move ι σ) :
    (move.apply client scope request w).InOrder request ∧
      w.Before (move.apply client scope request w) := by
  cases move with
  | service change =>
    exact ⟨⟨⟨h.shared.untouched, h.shared.listed⟩, fun i => (h.placed i).service _⟩,
      ⟨fun _ _ _ hreturned => hreturned, Extends.refl _⟩⟩
  | step caller =>
    have hcaller := h.placed caller
    have hstep := advance_spec hkeys scope (request caller) caller (w.stage caller) w.shared
    obtain ⟨hshared, hown⟩ := hstep.own hcaller h.shared
    rw [Move.apply]
    refine ⟨⟨hshared, fun i => ?_⟩, ⟨fun i kind way hreturned => ?_, hstep.extends hcaller⟩⟩
    · by_cases heq : i = caller
      · subst heq
        simpa using hown
      · simpa [heq] using hstep.other hcaller h.shared heq (h.placed i)
    · by_cases heq : i = caller
      · subst heq
        simpa using hstep.eq_of_returned hreturned
      · simpa [heq] using hreturned

theorem Concurrent.InOrder.run (moves : List (Move ι σ)) :
    (runMoves client scope request moves w).InOrder request ∧
      w.Before (runMoves client scope request moves w) := by
  induction moves generalizing w with
  | nil => exact ⟨h, .refl w⟩
  | cons move rest ih =>
    obtain ⟨hnext, hbefore⟩ := h.apply hkeys scope move
    obtain ⟨hrest, hlater⟩ := ih hnext
    exact ⟨hrest, hbefore.trans hlater⟩

end Runs

/-- Lookups under way, and at a later time.

- `one_listing`: there is one listing at most.
- `one_inside`: there is one lookup at most in the section in which the cache is filled.
- `reads_listed`: a lookup that reads the cache, or has read it, finds the listing done.
- `cached`: a kind returned from the cache, be it found or settled there, stays in it.
- `agree`: lookups of one type return one kind from it, now or later.
- `refused`: a lookup whose creation is refused returns the kind asked for.
- `never_fails`, `returned`: no lookup fails, and what it returned stays. -/
structure Coherent (request : ι → MetricDescriptor) (w later : Concurrent ι σ) : Prop where
  one_listing : w.shared.calls.countP (·.isListing) ≤ 1
  one_inside : ∀ i j, (w.stage i).inside = true → (w.stage j).inside = true → i = j
  reads_listed : ∀ i, (w.stage i).reads = true → w.shared.Listed
  cached : ∀ i kind, (w.stage i).agreed? = some kind →
    later.shared.cache.get? (request i).type = some kind
  agree : ∀ i j kind kind', (request i).type = (request j).type →
    (w.stage i).agreed? = some kind → (later.stage j).agreed? = some kind' → kind = kind'
  refused : ∀ i kind, w.stage i = .returned kind .refused → kind = (request i).kind
  never_fails : ∀ i fault, w.stage i ≠ .failed fault
  returned : ∀ i kind way, w.stage i = .returned kind way → later.stage i = .returned kind way

section Coherent

variable {request : ι → MetricDescriptor} {w : Concurrent ι σ} (h : w.InOrder request)

include h

/-- Either nothing was listed yet, or there was one listing. -/
theorem Concurrent.InOrder.listings : w.shared.calls.filter (·.isListing) = [] ∨
    ∃ outcome, w.shared.calls.filter (·.isListing) = [.listing outcome] := by
  cases hpop : w.shared.cache.populated with
  | true =>
    obtain ⟨-, outcome, honly, -⟩ := h.shared.listed hpop
    exact Or.inr ⟨outcome, honly⟩
  | false =>
    cases hholder : w.shared.holder with
    | none => exact Or.inl (h.shared.untouched hpop hholder).1
    | some i =>
      -- whoever is inside knows what was listed
      have hinside := (h.placed i).inside_iff.mpr hholder
      have hfits := (h.placed i).fits
      cases hstage : w.stage i with
      | filling => rw [hstage] at hfits; exact Or.inl hfits.2.1
      | listed listing => rw [hstage] at hfits; exact Or.inr ⟨_, hfits.2.1⟩
      | filled =>
        rw [hstage] at hfits
        obtain ⟨-, outcome, honly, -⟩ := hfits
        exact Or.inr ⟨outcome, honly⟩
      | _ => rw [hstage] at hinside; cases hinside

theorem Concurrent.InOrder.countP_isListing : w.shared.calls.countP (·.isListing) ≤ 1 := by
  rw [List.countP_eq_length_filter]
  rcases h.listings with hnone | ⟨outcome, hone⟩
  · rw [hnone]
    exact Nat.zero_le 1
  · rw [hone]
    exact Nat.le_refl 1

theorem Concurrent.InOrder.one_inside {i j : ι} (hi : (w.stage i).inside = true)
    (hj : (w.stage j).inside = true) : i = j := by
  have hholder := (h.placed i).inside_iff.mp hi
  rw [(h.placed j).inside_iff.mp hj] at hholder
  exact (Option.some.inj hholder).symm

theorem Concurrent.InOrder.listed {i : ι} (hreads : (w.stage i).reads = true) :
    w.shared.Listed := by
  have hfits := (h.placed i).fits
  have hpop : w.shared.cache.populated = true := by
    cases hstage : w.stage i with
    | called | queued | filling | listed | filled | failed => rw [hstage] at hreads; cases hreads
    | ready | missing | created => rwa [hstage] at hfits
    | returned kind way => rw [hstage] at hfits; cases way <;> exact hfits.1
  exact (h.shared.listed hpop).2

theorem Concurrent.InOrder.cached {i : ι} {kind : MetricKind}
    (hagreed : (w.stage i).agreed? = some kind) :
    w.shared.cache.get? (request i).type = some kind := by
  have hfits := (h.placed i).fits
  cases hstage : w.stage i with
  | returned kind' way =>
    rw [hstage] at hagreed hfits
    cases way with
    | refused => cases hagreed
    | hit | settled =>
      cases hagreed
      exact hfits.2
  | _ => rw [hstage] at hagreed; cases hagreed

theorem Concurrent.InOrder.refused {i : ι} {kind : MetricKind}
    (hstage : w.stage i = .returned kind .refused) : kind = (request i).kind := by
  have hfits := (h.placed i).fits
  rw [hstage] at hfits
  exact hfits.2

theorem Concurrent.InOrder.never_fails (i : ι) (fault : Fault) : w.stage i ≠ .failed fault := by
  intro hstage
  have hfits := (h.placed i).fits
  rw [hstage] at hfits
  exact hfits

theorem Concurrent.InOrder.coherent {later : Concurrent ι σ} (hlater : later.InOrder request)
    (hbefore : w.Before later) : Coherent request w later where
  one_listing := h.countP_isListing
  one_inside _ _ := h.one_inside
  reads_listed _ := h.listed
  cached i kind hagreed := hbefore.known _ _ (h.cached hagreed)
  agree i j kind kind' htype hi hj := by
    have hknown : later.shared.cache.get? (request j).type = some kind :=
      htype ▸ hbefore.known _ _ (h.cached hi)
    rw [hlater.cached hj] at hknown
    exact (Option.some.inj hknown).symm
  refused _ _ := h.refused
  never_fails := h.never_fails
  returned := hbefore.returned

end Coherent

/-! ## No lookup waits forever -/

/-- How many steps a lookup has left at most. -/
def Stage.left : Stage → Nat
  | .called => 8
  | .queued => 7
  | .filling => 6
  | .listed _ => 5
  | .filled => 4
  | .ready => 3
  | .missing => 2
  | .created => 1
  | .returned .. | .failed _ => 0

/-- A lookup gets on if the section is free, or if it is inside. -/
theorem Stage.left_advance (client : Client σ) (scope : DescriptorScope) (d : MetricDescriptor)
    (caller : ι) {stage : Stage} {k : Shared ι σ}
    (hfree : k.holder = none ∨ stage.inside = true) (hleft : stage.left ≠ 0) :
    (stage.advance client scope d caller k).1.left < stage.left := by
  cases stage with
  | called =>
    simp only [advance]
    split <;> simp [left]
  | queued =>
    have hnone : k.holder = none := hfree.resolve_right nofun
    simp only [advance, hnone]
    split
    · next h => cases h
    · split <;> simp [left]
  | filling | listed | ready | missing =>
    simp only [advance]
    split <;> simp [left]
  | filled | created => simp [advance, left]
  | returned | failed => exact absurd rfl hleft

section Progress

variable [DecidableEq ι] {client : Client σ} (hkeys : client.ListsKeys) (scope : DescriptorScope)
  {request : ι → MetricDescriptor} {w : Concurrent ι σ} (h : w.InOrder request)

include hkeys h

/-- A lookup that need not wait for another one comes to its end, and leaves the section free. -/
theorem Concurrent.InOrder.exists_returned_of_free {i : ι}
    (hfree : w.shared.holder = none ∨ w.shared.holder = some i) :
    ∃ moves kind way, (runMoves client scope request moves w).stage i = .returned kind way ∧
      (runMoves client scope request moves w).shared.holder = none := by
  have hinside := (h.placed i).inside_iff
  induction hleft : (w.stage i).left using Nat.strong_induction_on generalizing w with
  | _ n ih =>
    subst hleft
    by_cases hover : (w.stage i).left = 0
    · cases hstage : w.stage i with
      | returned kind way =>
        refine ⟨[], kind, way, hstage, hfree.resolve_right fun hheld => ?_⟩
        rw [← hinside, hstage] at hheld
        cases hheld
      | failed fault => exact absurd hstage (h.never_fails i fault)
      | _ => rw [hstage] at hover; cases hover
    · have hstep := advance_spec hkeys scope (request i) i (w.stage i) w.shared
      have hless := Stage.left_advance client scope (request i) i
        (hfree.imp_right hinside.mpr) hover
      obtain ⟨hnext, -⟩ := h.apply hkeys scope (.step i)
      have hfree' : (Move.apply client scope request (.step i) w).shared.holder = none ∨
          (Move.apply client scope request (.step i) w).shared.holder = some i := by
        rcases hstep.holder_eq with heq | ⟨-, heq⟩ | ⟨-, heq⟩
        · exact heq ▸ hfree
        · exact Or.inr heq
        · exact Or.inl heq
      have hstage : (Move.apply client scope request (.step i) w).stage i =
          ((w.stage i).advance client scope (request i) i w.shared).1 :=
        Function.update_self ..
      obtain ⟨moves, hmoves⟩ := ih _ (hstage ▸ hless) hnext hfree' (hnext.placed i).inside_iff rfl
      exact ⟨.step i :: moves, hmoves⟩

/-- **No lookup waits forever.** After whoever is inside the section, any lookup can return. -/
theorem Concurrent.InOrder.exists_returned (i : ι) :
    ∃ moves kind way, (runMoves client scope request moves w).stage i = .returned kind way := by
  cases hholder : w.shared.holder with
  | none =>
    obtain ⟨moves, kind, way, hreturned, -⟩ :=
      h.exists_returned_of_free hkeys scope (i := i) (Or.inl hholder)
    exact ⟨moves, kind, way, hreturned⟩
  | some j =>
    obtain ⟨first, -, -, -, hnone⟩ :=
      h.exists_returned_of_free hkeys scope (i := j) (Or.inr hholder)
    obtain ⟨hafter, -⟩ := h.run hkeys scope first
    obtain ⟨moves, kind, way, hreturned, -⟩ :=
      hafter.exists_returned_of_free hkeys scope (i := i) (Or.inl hnone)
    refine ⟨first ++ moves, kind, way, ?_⟩
    rwa [runMoves, List.foldl_append]

end Progress

/-! ## Agreement -/

/-- **Concurrent lookups agree**, whatever they ask for, whatever the service answers and in
whatever order their steps come. -/
theorem run_coherent [DecidableEq ι] (client : Client σ) (hkeys : client.ListsKeys)
    (scope : DescriptorScope) (request : ι → MetricDescriptor) (s : σ)
    (moves later : List (Move ι σ)) :
    let w := runMoves client scope request moves (.start s)
    Coherent request w (runMoves client scope request later w) := by
  obtain ⟨hw, -⟩ := (Concurrent.inOrder_start request s).run hkeys scope moves
  obtain ⟨hlater, hbefore⟩ := hw.run hkeys scope later
  exact hw.coherent hlater hbefore

/-- A gauge and a cumulative of one type that is new, and a cumulative of a type that the service
has as a gauge. -/
def rivalRequest : Nat → MetricDescriptor
  | 0 => { cumulativeOf "t/new" with kind := .gauge }
  | 1 => cumulativeOf "t/new"
  | _ => cumulativeOf "t/known"

/-- The steps of lookups by their numbers. -/
def rivalMoves (callers : List Nat) : List (Move Nat MemoryBackend) := callers.map .step

/-- All three find the cache unfilled, the first one fills it, and both others wait for it. The
first two create their type before either settles its kind. -/
theorem run_coherent_rivals :
    let run := runMoves MemoryBackend.client ⟨"projects/p", "t/"⟩ rivalRequest
    let w := run (rivalMoves [0, 1, 2, 0, 1, 0, 2, 0, 0, 1, 1, 0, 1, 0, 0])
      (.start { existing := .ofList [("t/known", .gauge)] })
    let later := run (rivalMoves [1, 2, 2]) w
    Coherent rivalRequest w later ∧
      [0, 1, 2].map w.stage = [.returned .gauge .settled, .created, .queued] ∧
      [0, 1, 2].map later.stage =
        [.returned .gauge .settled, .returned .gauge .settled, .returned .gauge .hit] :=
  ⟨run_coherent MemoryBackend.client listsKeys_memory ⟨"projects/p", "t/"⟩ rivalRequest
    { existing := .ofList [("t/known", .gauge)] } _ _, rfl, rfl⟩

end Telemetry.DescriptorCache

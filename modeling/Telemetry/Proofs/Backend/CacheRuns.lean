import Mathlib.Data.List.Infix
import Telemetry.Backend.Memory
import Telemetry.Proofs.Backend.Lookup

/-!
The descriptor cache over whole runs of lookups and clears, whatever the service answers.

Proved here:

* `lawful_lookupAt`: each lookup of a run does what its two steps do;
* `Chain.sound`: what lookups one after another do;
* `history_sound`: the lookups of a run between two clears list once at most, before anything
  is created, create only missing types, each once at most, and never change a known kind.
-/

namespace Telemetry.DescriptorCache

variable {σ : Type}

/-! ## Runs -/

/-- What is asked of a cache. -/
inductive Request where
  | ensure (d : MetricDescriptor)
  | clear

/-- A lookup of a run: the cache before it, after it was filled and after the lookup, the
calls that were made, and what it returned. -/
structure Lookup where
  descriptor : MetricDescriptor
  before : DescriptorCache
  filled : DescriptorCache
  after : DescriptorCache
  calls : List ServiceCall
  outcome : Except Fault MetricKind

inductive Event where
  | lookup (l : Lookup)
  | clear

section Runs

variable (client : Client σ) (scope : DescriptorScope)

def lookupAt (d : MetricDescriptor) (cache : DescriptorCache) (s : σ) : Lookup :=
  let step := ensure client scope d cache s
  { descriptor := d
    before := cache
    filled := (populate client scope cache s).cache
    after := step.cache
    calls := (ensure client.noting scope d cache (s, [])).backend.2
    outcome := step.outcome }

/-- The events of a run from a cache and a state of the service. -/
def history : List Request → DescriptorCache → σ → List Event
  | [], _, _ => []
  | .clear :: rest, cache, s => .clear :: history rest cache.clear s
  | .ensure d :: rest, cache, s =>
    let step := ensure client scope d cache s
    .lookup (lookupAt client scope d cache s) :: history rest step.cache step.backend

end Runs

/-! ## Lookups one after another -/

/-- A lookup does what its two steps do. -/
inductive Lookup.Lawful (l : Lookup) : Prop
  | intro {kind : MetricKind} {looked created : List ServiceCall}
    (filling : Filling l.before l.filled looked)
    (settling : Settling l.filled l.descriptor kind l.after created)
    (calls_eq : l.calls = looked ++ created) (outcome_eq : l.outcome = .ok kind)

/-- Lookups that follow each other from a cache. -/
inductive Chain : DescriptorCache → List Lookup → Prop
  | nil {cache : DescriptorCache} : Chain cache []
  | cons {l : Lookup} {rest : List Lookup} (head : l.Lawful) (tail : Chain l.after rest) :
    Chain l.before (l :: rest)

theorem lawful_lookupAt {client : Client σ} (hkeys : client.ListsKeys)
    (scope : DescriptorScope) (d : MetricDescriptor) (cache : DescriptorCache) (s : σ) :
    (lookupAt client scope d cache s).Lawful := by
  obtain ⟨filled, kind, after, looked, created, hfilled, hfilling, hsettling, houtcome,
    hafter, hcalls⟩ := ensure_spec client scope d cache s hkeys
  subst hfilled hafter
  exact .intro hfilling hsettling hcalls houtcome

def callsOf (lookups : List Lookup) : List ServiceCall := lookups.flatMap (·.calls)

theorem callsOf_cons (l : Lookup) (rest : List Lookup) :
    callsOf (l :: rest) = l.calls ++ callsOf rest := rfl

/-- The caches of lookups in turn. -/
def cachesOf (lookups : List Lookup) : List DescriptorCache :=
  lookups.flatMap fun l => [l.before, l.filled, l.after]

/-- What lookups without a clear between them do.

- `lists`, `one_listing`, `listing_first`: a cache that is not filled is filled by a listing;
  there is one at most, and nothing is created before it.
- `attempted`: a lookup creates its descriptor if the type is missing after the cache is
  filled, and nothing else.
- `listed_not_created`, `created_once`: no listed type is created, and no type twice.
- `kept`: a known type stays known, with its kind.
- `returned`: the known kind comes back, and the kind asked for if the type is not known.
- `failed_kept`: a failed creation changes nothing. -/
structure Sound (lookups : List Lookup) : Prop where
  lists : ∀ l ∈ lookups, l.before.populated = false → ∃ outcome, .listing outcome ∈ l.calls
  one_listing : (callsOf lookups).countP (·.isListing) ≤ 1
  listing_first : (callsOf lookups).Pairwise fun earlier later =>
    earlier.attempt?.isSome = true → later.isListing = false
  attempted : ∀ l ∈ lookups, l.calls.filterMap (·.attempt?) =
    if l.filled.get? l.descriptor.type = none then [l.descriptor] else []
  listed_not_created : ∀ listing, .listing (.ok listing) ∈ callsOf lookups →
    ∀ d ∈ (callsOf lookups).filterMap (·.attempt?), ∀ e ∈ listing,
      e.1.key? ≠ some (.text d.type)
  created_once : ∀ type, (callsOf lookups).countP (·.creates type) ≤ 1
  kept : (cachesOf lookups).Pairwise Extends
  returned : ∀ l ∈ lookups,
    l.outcome = .ok ((l.after.get? l.descriptor.type).getD l.descriptor.kind)
  failed_kept : ∀ l ∈ lookups, ∀ d fault, .creation d (.error fault) ∈ l.calls →
    l.after = l.filled

section Lawful

variable {l : Lookup} (h : l.Lawful)

include h

theorem Lookup.Lawful.populated : l.after.populated = true := by
  obtain ⟨hfilling, hsettling, -, -⟩ := h
  rw [hsettling.populated]
  exact hfilling.populated

theorem Lookup.Lawful.exists_listing (hnot : l.before.populated = false) :
    ∃ outcome, .listing outcome ∈ l.calls := by
  obtain ⟨hfilling, -, hcalls, -⟩ := h
  obtain ⟨outcome, hmem⟩ := hfilling.exists_listing hnot
  exact ⟨outcome, hcalls ▸ List.mem_append_left _ hmem⟩

theorem Lookup.Lawful.filled_extends (hclean : Clean l.before) : Extends l.before l.filled := by
  obtain ⟨hfilling, -, -, -⟩ := h
  exact hfilling.extends hclean

theorem Lookup.Lawful.after_extends : Extends l.filled l.after := by
  obtain ⟨-, hsettling, -, -⟩ := h
  exact hsettling.extends

theorem Lookup.Lawful.attempts_eq : l.calls.filterMap (·.attempt?) =
    if l.filled.get? l.descriptor.type = none then [l.descriptor] else [] := by
  obtain ⟨hfilling, hsettling, hcalls, -⟩ := h
  rw [hcalls, List.filterMap_append, hfilling.attempts_eq, hsettling.attempts_eq,
    List.nil_append]

/-- A type that is known after the cache is filled is not created. -/
theorem Lookup.Lawful.not_attempted {type : String}
    (hknown : (l.filled.get? type).isSome = true) :
    ∀ d ∈ l.calls.filterMap (·.attempt?), d.type ≠ type := by
  intro d hd
  rw [h.attempts_eq] at hd
  split at hd
  · next hmissing =>
    rw [List.mem_singleton.mp hd]
    rintro rfl
    rw [hmissing] at hknown
    cases hknown
  · cases hd

theorem Lookup.Lawful.outcome_eq :
    l.outcome = .ok ((l.after.get? l.descriptor.type).getD l.descriptor.kind) := by
  obtain ⟨-, hsettling, -, houtcome⟩ := h
  rw [houtcome, ← hsettling.kind_eq]

theorem Lookup.Lawful.after_eq {d : MetricDescriptor} {fault : Fault}
    (hfailed : .creation d (.error fault) ∈ l.calls) : l.after = l.filled := by
  obtain ⟨hfilling, hsettling, hcalls, -⟩ := h
  rw [hcalls, List.mem_append] at hfailed
  rcases hfailed with hfailed | hfailed
  · exact absurd hfailed hfilling.not_creation
  · exact hsettling.after_eq hfailed

theorem Lookup.Lawful.listing_first :
    l.calls.Pairwise fun _ later => later.isListing = false := by
  obtain ⟨hfilling, hsettling, hcalls, -⟩ := h
  rw [hcalls, List.pairwise_append]
  refine ⟨hfilling.listing_first, ?_, fun _ _ => hsettling.isListing_eq_false⟩
  exact List.pairwise_of_forall_mem_list fun _ _ => hsettling.isListing_eq_false

theorem Lookup.Lawful.isListing_eq_false (hpop : l.before.populated = true) :
    ∀ call ∈ l.calls, call.isListing = false := by
  obtain ⟨hfilling, hsettling, hcalls, -⟩ := h
  rw [hcalls, hfilling.calls_eq_nil hpop, List.nil_append]
  exact hsettling.isListing_eq_false

/-- The types of a listing that succeeds are known after it. -/
theorem Lookup.Lawful.listed_known {listing : List (Value × MetricKind)}
    (hlisting : .listing (.ok listing) ∈ l.calls) {type : String}
    (htype : ∃ e ∈ listing, e.1.key? = some (.text type)) :
    (l.filled.get? type).isSome = true := by
  obtain ⟨hfilling, hsettling, hcalls, -⟩ := h
  rw [hcalls, List.mem_append] at hlisting
  rcases hlisting with hlisting | hlisting
  · exact hfilling.listed_known hlisting htype
  · cases hsettling.isListing_eq_false _ hlisting

theorem Lookup.Lawful.countP_creates (type : String) :
    l.calls.countP (·.creates type) = 0 ∨
      l.calls.countP (·.creates type) = 1 ∧ (l.after.get? type).isSome = true := by
  obtain ⟨hfilling, hsettling, hcalls, -⟩ := h
  rw [hcalls, List.countP_append, hfilling.countP_creates, Nat.zero_add]
  exact hsettling.countP_creates type

end Lawful

/-! ## Whole chains -/

section Chain

variable {cache : DescriptorCache} {lookups : List Lookup} (h : Chain cache lookups)

include h

theorem Chain.lawful : ∀ l ∈ lookups, l.Lawful := by
  induction h with
  | nil => intro l hl; cases hl
  | cons head _ ih =>
    intro l hl
    rcases List.mem_cons.mp hl with rfl | hl
    · exact head
    · exact ih l hl

theorem Chain.extends (hclean : Clean cache) : ∀ c ∈ cachesOf lookups, Extends cache c := by
  induction h with
  | nil => intro c hc; cases hc
  | @cons l rest head _ ih =>
    have hfilled := head.filled_extends hclean
    have hafter := hfilled.trans head.after_extends
    intro c hc
    rcases List.mem_append.mp hc with hc | hc
    · simp only [List.mem_cons, List.not_mem_nil, or_false] at hc
      rcases hc with rfl | rfl | rfl
      · exact Extends.refl _
      · exact hfilled
      · exact hafter
    · exact hafter.trans (ih (clean_of_populated head.populated) c hc)

theorem Chain.kept (hclean : Clean cache) : (cachesOf lookups).Pairwise Extends := by
  induction h with
  | nil => exact .nil
  | @cons l rest head tail ih =>
    have hclean' := clean_of_populated head.populated
    have hfilled := head.filled_extends hclean
    have hafter := head.after_extends
    have hrest := tail.extends hclean'
    refine List.pairwise_append.mpr ⟨?_, ih hclean', ?_⟩
    · simp [hfilled, hafter, hfilled.trans hafter]
    · intro c hc later hlater
      refine Extends.trans ?_ (hrest later hlater)
      simp only [List.mem_cons, List.not_mem_nil, or_false] at hc
      rcases hc with rfl | rfl | rfl
      · exact hfilled.trans hafter
      · exact hafter
      · exact Extends.refl _

theorem Chain.isListing_eq_false (hpop : cache.populated = true) :
    ∀ call ∈ callsOf lookups, call.isListing = false := by
  induction h with
  | nil => intro call hcall; cases hcall
  | cons head _ ih =>
    intro call hcall
    rcases List.mem_append.mp hcall with hcall | hcall
    · exact head.isListing_eq_false hpop call hcall
    · exact ih head.populated call hcall

theorem Chain.listing_first :
    (callsOf lookups).Pairwise fun _ later => later.isListing = false := by
  induction h with
  | nil => exact .nil
  | cons head tail ih =>
    exact List.pairwise_append.mpr ⟨head.listing_first, ih,
      fun _ _ => tail.isListing_eq_false head.populated⟩

theorem Chain.not_attempted (hclean : Clean cache) {type : String}
    (hknown : (cache.get? type).isSome = true) :
    ∀ d ∈ (callsOf lookups).filterMap (·.attempt?), d.type ≠ type := by
  induction h with
  | nil => intro d hd; cases hd
  | @cons l rest head _ ih =>
    have hfilled := (head.filled_extends hclean).isSome hknown
    have hafter := head.after_extends.isSome hfilled
    intro d hd
    rw [callsOf_cons, List.filterMap_append, List.mem_append] at hd
    rcases hd with hd | hd
    · exact head.not_attempted hfilled d hd
    · exact ih (clean_of_populated head.populated) hafter d hd

theorem Chain.listed_not_created {listing : List (Value × MetricKind)}
    (hlisting : .listing (.ok listing) ∈ callsOf lookups) {type : String}
    (htype : ∃ e ∈ listing, e.1.key? = some (.text type)) :
    ∀ d ∈ (callsOf lookups).filterMap (·.attempt?), d.type ≠ type := by
  cases h with
  | nil => cases hlisting
  | @cons l rest head tail =>
    -- only the first lookup can list, and it lists before it creates
    have hfirst : .listing (.ok listing) ∈ l.calls := by
      rcases List.mem_append.mp hlisting with hlisting | hlisting
      · exact hlisting
      · cases tail.isListing_eq_false head.populated _ hlisting
    have hfilled := head.listed_known hfirst htype
    have hafter := head.after_extends.isSome hfilled
    intro d hd
    rw [callsOf_cons, List.filterMap_append, List.mem_append] at hd
    rcases hd with hd | hd
    · exact head.not_attempted hfilled d hd
    · exact tail.not_attempted (clean_of_populated head.populated) hafter d hd

omit h in
theorem countP_creates_eq_zero {calls : List ServiceCall} {type : String}
    (hnot : ∀ d ∈ calls.filterMap (·.attempt?), d.type ≠ type) :
    calls.countP (·.creates type) = 0 := by
  refine List.countP_eq_zero.mpr fun call hcall => ?_
  cases call with
  | listing => simp [ServiceCall.creates]
  | creation d outcome =>
    have hne := hnot d (List.mem_filterMap.mpr ⟨_, hcall, rfl⟩)
    cases outcome with
    | error => simp [ServiceCall.creates]
    | ok => simp [ServiceCall.creates, hne]

theorem Chain.created_once (type : String) :
    (callsOf lookups).countP (·.creates type) ≤ 1 := by
  induction h with
  | nil => exact Nat.zero_le 1
  | @cons l rest head tail ih =>
    rw [callsOf_cons, List.countP_append]
    rcases head.countP_creates type with hnone | ⟨hone, hknown⟩
    · rw [hnone, Nat.zero_add]
      exact ih
    · have hrest := tail.not_attempted (clean_of_populated head.populated) hknown
      rw [hone, countP_creates_eq_zero hrest]

theorem Chain.one_listing : (callsOf lookups).countP (·.isListing) ≤ 1 := by
  have hfirst := h.listing_first
  cases hcalls : callsOf lookups with
  | nil => exact Nat.zero_le 1
  | cons call rest =>
    rw [hcalls, List.pairwise_cons] at hfirst
    have hrest : rest.countP (·.isListing) = 0 :=
      List.countP_eq_zero.mpr fun later hlater => by simp [hfirst.1 later hlater]
    rw [List.countP_cons, hrest]
    split <;> simp

/-- **Lookups without a clear between them.** -/
theorem Chain.sound (hclean : Clean cache) : Sound lookups where
  lists := fun l hl hnot => (h.lawful l hl).exists_listing hnot
  one_listing := h.one_listing
  listing_first := by
    refine h.listing_first.imp ?_
    intro _ later hlater _
    exact hlater
  attempted := fun l hl => (h.lawful l hl).attempts_eq
  listed_not_created := by
    intro listing hlisting d hd e he htype
    exact h.listed_not_created hlisting ⟨e, he, htype⟩ d hd rfl
  created_once := h.created_once
  kept := h.kept hclean
  returned := fun l hl => (h.lawful l hl).outcome_eq
  failed_kept := fun l hl _ _ hfailed => (h.lawful l hl).after_eq hfailed

end Chain

/-! ## The lookups of a run -/

section History

variable {client : Client σ} (hkeys : client.ListsKeys) (scope : DescriptorScope)

include hkeys

theorem chain_of_isPrefix {requests : List Request} {cache : DescriptorCache} {s : σ}
    {lookups : List Lookup}
    (h : lookups.map Event.lookup <+: history client scope requests cache s) :
    Chain cache lookups := by
  induction lookups generalizing requests cache s with
  | nil => exact .nil
  | cons l rest ih =>
    rw [List.map_cons] at h
    cases requests with
    | nil => cases List.prefix_nil.mp h
    | cons request later =>
      cases request with
      | clear =>
        rw [history, List.cons_prefix_cons] at h
        cases h.1
      | ensure d =>
        rw [history, List.cons_prefix_cons] at h
        obtain ⟨hhead, htail⟩ := h
        cases hhead
        exact .cons (lawful_lookupAt hkeys scope d cache s) (ih htail)

/-- Lookups of a run without a clear between them follow each other from a cache that knows
nothing if it is not filled. -/
theorem exists_chain {requests : List Request} {cache : DescriptorCache} {s : σ}
    (hclean : Clean cache) {lookups : List Lookup}
    (h : lookups.map Event.lookup <:+: history client scope requests cache s) :
    ∃ start, Clean start ∧ Chain start lookups := by
  induction requests generalizing cache s with
  | nil =>
    rw [history, List.infix_nil, List.map_eq_nil_iff] at h
    subst h
    exact ⟨cache, hclean, .nil⟩
  | cons request rest ih =>
    -- either the lookups begin with the first event, or they are all after it
    cases request with
    | clear =>
      rcases List.infix_cons_iff.mp h with hfirst | hlater
      · rw [← history] at hfirst
        exact ⟨cache, hclean, chain_of_isPrefix hkeys scope hfirst⟩
      · exact ih clean_empty hlater
    | ensure d =>
      have hlawful := lawful_lookupAt hkeys scope d cache s
      rcases List.infix_cons_iff.mp h with hfirst | hlater
      · rw [← history] at hfirst
        exact ⟨cache, hclean, chain_of_isPrefix hkeys scope hfirst⟩
      · exact ih (clean_of_populated hlawful.populated) hlater

end History

/-- **Runs of the cache.** Whatever the service answers, the lookups between two clears of a
run are sound. -/
theorem history_sound (client : Client σ) (hkeys : client.ListsKeys) (scope : DescriptorScope)
    (requests : List Request) (s : σ) (lookups : List Lookup)
    (h : lookups.map Event.lookup <:+: history client scope requests empty s) :
    Sound lookups := by
  obtain ⟨start, hclean, hchain⟩ := exists_chain hkeys scope clean_empty h
  exact hchain.sound hclean

theorem listsKeys_memory : MemoryBackend.client.ListsKeys := by
  intro project filter s listing s' h e he
  simp only [MemoryBackend.client, MemoryBackend.unlessOut, MemoryBackend.list] at h
  split at h
  · cases h
  · split at h
    · cases h
    · cases h
      obtain ⟨entry, -, rfl⟩ := List.mem_map.mp he
      rfl

def cumulativeOf (type : String) : MetricDescriptor := ⟨type, .cumulative, .double, ""⟩

/-- A type that the service has as a gauge, a clear, and after it lookups of that type and of
another, which is looked up again. -/
def mixedRequests : List Request :=
  [.ensure (cumulativeOf "t/known"), .clear, .ensure (cumulativeOf "t/known"),
    .ensure (cumulativeOf "t/new"), .ensure (cumulativeOf "t/new")]

def mixedHistory : List Event :=
  history MemoryBackend.client ⟨"projects/p", "t/"⟩ mixedRequests empty
    { existing := .ofList [("t/known", .gauge)] }

theorem history_sound_mixed :
    ∃ a b c, [a, b, c].map Event.lookup <:+: mixedHistory ∧
      [a, b, c].map (·.outcome) = [.ok .gauge, .ok .cumulative, .ok .cumulative] ∧
      (callsOf [a, b, c]).map (·.isListing) = [true, false] ∧ Sound [a, b, c] := by
  refine ⟨_, _, _, ⟨[_, _], [], rfl⟩, ?_, ?_, history_sound MemoryBackend.client
    listsKeys_memory ⟨"projects/p", "t/"⟩ mixedRequests
    { existing := .ofList [("t/known", .gauge)] } _ ⟨[_, _], [], rfl⟩⟩
  · rfl
  · rfl

end Telemetry.DescriptorCache

import Mathlib.Data.List.TakeWhile
import Telemetry.Backend.DescriptorCache

/-!
One lookup of the descriptor cache, and the calls that it makes to the monitoring service.

Proved here:

* `learn_isOk`, `get?_learn`: a listing of keys can be taken over, and of a type that is listed
  more than once the last entry is known after it;
* `learn_known`, `learn_origin`: what is known then is what was known and what is listed;
* `ensure_spec`: a lookup is a `Filling` and a `Settling`, in what it does and in what it
  calls;
* `extends_settle`, `get?_settle`: a settled kind is known, and no other one is lost;
* `Filling.extends`, `Settling.extends`: neither loses what is known;
* `ensure_fault`: a lookup fails only by a listed type that is no key.
-/

namespace Telemetry

variable {σ : Type}

/-- A call of the cache to the service, with what came of it. -/
inductive ServiceCall where
  | listing (outcome : Except Fault (List (Value × MetricKind)))
  | creation (d : MetricDescriptor) (outcome : Except Fault Unit)

namespace ServiceCall

def isListing : ServiceCall → Bool
  | .listing _ => true
  | .creation .. => false

/-- The descriptor whose creation is attempted. -/
def attempt? : ServiceCall → Option MetricDescriptor
  | .listing _ => none
  | .creation d _ => some d

/-- Whether a descriptor of a type is created. -/
def creates (type : String) : ServiceCall → Bool
  | .creation d (.ok _) => d.type = type
  | _ => false

end ServiceCall

/-- The client with a note of every listing and creation. -/
def Client.noting (client : Client σ) : Client (σ × List ServiceCall) :=
  { client.within Prod.fst (fun s r => (s, r.2)) with
    create := fun project d r =>
      let reply := client.create project d r.1
      (reply.1, reply.2, r.2 ++ [.creation d reply.1])
    list := fun project filter r =>
      let reply := client.list project filter r.1
      (reply.1, reply.2, r.2 ++ [.listing reply.1]) }

/-- Every listed type is a key, as every text is. -/
def Client.ListsKeys (client : Client σ) : Prop :=
  ∀ project filter s listing s', client.list project filter s = (.ok listing, s') →
    ∀ e ∈ listing, e.1.key?.isSome = true

namespace DescriptorCache

/-! ## Listings -/

/-- A listing is taken over as long as its types are keys, which leaves open whether the cache is
filled. -/
theorem learn_isOk (listing : List (Value × MetricKind)) (cache : DescriptorCache) :
    (cache.learn listing).1.isOk = listing.all (·.1.key?.isSome) ∧
      (cache.learn listing).2.populated = cache.populated := by
  induction listing generalizing cache with
  | nil => exact ⟨rfl, rfl⟩
  | cons e rest ih =>
    rw [learn, List.all_cons]
    cases hkey : e.1.key? with
    | none => exact ⟨rfl, rfl⟩
    | some key => exact ih _

theorem exists_learn {listing : List (Value × MetricKind)}
    (hkeys : ∀ e ∈ listing, e.1.key?.isSome = true) (cache : DescriptorCache) :
    ∃ learned, cache.learn listing = (.ok (), learned) := by
  have hok := (learn_isOk listing cache).1.trans (List.all_eq_true.mpr hkeys)
  cases hlearn : cache.learn listing with
  | mk outcome learned =>
    rw [hlearn] at hok
    cases outcome with
    | error fault => cases hok
    | ok _ => exact ⟨learned, rfl⟩

/-- The kind of the last entry of a listing that has a key. -/
def lastListed? (key : Value.Key) (listing : List (Value × MetricKind)) : Option MetricKind :=
  (listing.filter (·.1.key? = some key)).getLast?.map (·.2)

theorem lastListed?_cons (key : Value.Key) (e : Value × MetricKind)
    (rest : List (Value × MetricKind)) :
    lastListed? key (e :: rest) =
      (lastListed? key rest).or (if e.1.key? = some key then some e.2 else none) := by
  by_cases h : e.1.key? = some key
  · simp only [lastListed?, h, decide_true, List.filter_cons_of_pos, List.getLast?_cons, if_true]
    cases (rest.filter (·.1.key? = some key)).getLast? <;> rfl
  · simp [lastListed?, h]

theorem isSome_lastListed?_iff {key : Value.Key} {listing : List (Value × MetricKind)} :
    (lastListed? key listing).isSome = true ↔ ∃ e ∈ listing, e.1.key? = some key := by
  simp [lastListed?]

theorem mem_of_lastListed? {key : Value.Key} {kind : MetricKind}
    {listing : List (Value × MetricKind)} (h : lastListed? key listing = some kind) :
    ∃ e ∈ listing, e.1.key? = some key ∧ e.2 = kind := by
  obtain ⟨e, he, hkind⟩ := Option.map_eq_some_iff.mp h
  obtain ⟨hmem, hkey⟩ := List.mem_filter.mp (List.mem_of_getLast? he)
  exact ⟨e, hmem, of_decide_eq_true hkey, hkind⟩

/-- What is known after a listing is taken over: the last of the entries before the first one
that is no key, and what was known before. -/
theorem get?_learn {listing : List (Value × MetricKind)} {cache learned : DescriptorCache}
    {outcome : Except Fault Unit} (h : cache.learn listing = (outcome, learned))
    (key : Value.Key) :
    learned.verified.get? key =
      (lastListed? key (listing.takeWhile (·.1.key?.isSome))).or (cache.verified.get? key) := by
  induction listing generalizing cache with
  | nil =>
    cases h
    rfl
  | cons e rest ih =>
    rw [learn] at h
    cases hkey : e.1.key? with
    | none =>
      rw [hkey] at h
      cases h
      simp [hkey, lastListed?]
    | some listed =>
      rw [hkey] at h
      rw [ih h, List.takeWhile_cons_of_pos (by simp [hkey]), lastListed?_cons, hkey,
        OrderedMap.get?_insert, Option.or_assoc]
      congr 1
      by_cases heq : key = listed
      · simp [heq]
      · have hne : listed ≠ key := fun h => heq h.symm
        simp [heq, hne]

/-- What was known or is listed is known after a listing is taken over. -/
theorem learn_known {listing : List (Value × MetricKind)} {cache learned : DescriptorCache}
    (hlearn : cache.learn listing = (.ok (), learned)) {key : Value.Key}
    (h : (cache.verified.get? key).isSome = true ∨ ∃ e ∈ listing, e.1.key? = some key) :
    (learned.verified.get? key).isSome = true := by
  have hok := (learn_isOk listing cache).1
  rw [hlearn] at hok
  have hkeys := List.all_eq_true.mp hok.symm
  rw [get?_learn hlearn key, List.takeWhile_eq_self_iff.mpr hkeys, Option.isSome_or,
    Bool.or_eq_true, isSome_lastListed?_iff]
  exact h.symm

/-- What is known after a listing is taken over was known or is listed. -/
theorem learn_origin {listing : List (Value × MetricKind)} {cache learned : DescriptorCache}
    {outcome : Except Fault Unit} (hlearn : cache.learn listing = (outcome, learned))
    {key : Value.Key} {kind : MetricKind} (h : learned.verified.get? key = some kind) :
    cache.verified.get? key = some kind ∨ ∃ e ∈ listing, e.1.key? = some key ∧ e.2 = kind := by
  rw [get?_learn hlearn key, Option.or_eq_some_iff] at h
  rcases h with hlisted | ⟨-, hknown⟩
  · obtain ⟨e, he, hfound⟩ := mem_of_lastListed? hlisted
    exact Or.inr ⟨e, (List.takeWhile_prefix _).mem he, hfound⟩
  · exact Or.inl hknown

/-! ## Steps -/

section Populate

variable (client : Client σ) (scope : DescriptorScope) {cache : DescriptorCache} {s s' : σ}

theorem populate_of_populated (h : cache.populated = true) (s : σ) :
    populate client scope cache s = ⟨.ok (), cache, s, []⟩ := by
  rw [populate, if_pos h]

theorem populate_of_failed (hnew : cache.populated = false) {fault : Fault}
    (h : client.list scope.project scope.filter s = (.error fault, s')) :
    populate client scope cache s =
      ⟨.ok (), { cache with populated := true }, s',
        [.descriptorsNotListed scope.project fault]⟩ := by
  rw [populate, if_neg (by simp [hnew]), h]

theorem populate_of_listed (hnew : cache.populated = false)
    {listing : List (Value × MetricKind)} (hkeys : ∀ e ∈ listing, e.1.key?.isSome = true)
    (h : client.list scope.project scope.filter s = (.ok listing, s')) :
    ∃ learned, cache.learn listing = (.ok (), learned) ∧
      populate client scope cache s = ⟨.ok (), { learned with populated := true }, s', []⟩ := by
  obtain ⟨learned, hlearn⟩ := exists_learn hkeys cache
  refine ⟨learned, hlearn, ?_⟩
  rw [populate, if_neg (by simp [hnew]), h]
  simp only [hlearn]

end Populate

theorem settle_missing {cache : DescriptorCache} {type : String}
    (h : cache.get? type = none) (kind : MetricKind) :
    cache.settle type kind =
      (kind, { cache with verified := cache.verified.insert (.text type) kind }) := by
  have hnone : cache.verified.get? (.text type) = none := h
  have hnew : cache.verified.insertNew (.text type) kind =
      cache.verified.insert (.text type) kind := by
    rw [OrderedMap.insertNew, OrderedMap.contains, hnone]
    rfl
  rw [settle, hnew, OrderedMap.get?_insert, if_pos rfl]
  rfl

/-- How a cache is filled, and the calls for it. -/
inductive Filling (cache : DescriptorCache) : DescriptorCache → List ServiceCall → Prop
  | done (h : cache.populated = true) : Filling cache cache []
  | failed (h : cache.populated = false) (fault : Fault) :
    Filling cache { cache with populated := true } [.listing (.error fault)]
  | listed (h : cache.populated = false) {listing : List (Value × MetricKind)}
    {learned : DescriptorCache} (hlearn : cache.learn listing = (.ok (), learned)) :
    Filling cache { learned with populated := true } [.listing (.ok listing)]

/-- How the kind of a descriptor's type is found in a filled cache, and the calls for it. -/
inductive Settling (cache : DescriptorCache) (d : MetricDescriptor) :
    MetricKind → DescriptorCache → List ServiceCall → Prop
  | hit {kind : MetricKind} (h : cache.get? d.type = some kind) : Settling cache d kind cache []
  | refused (h : cache.get? d.type = none) (fault : Fault) :
    Settling cache d d.kind cache [.creation d (.error fault)]
  | created (h : cache.get? d.type = none) :
    Settling cache d d.kind
      { cache with verified := cache.verified.insert (.text d.type) d.kind }
      [.creation d (.ok ())]

/-- Everything that is known in one cache is known in another, with the same kind. -/
def Extends (cache later : DescriptorCache) : Prop :=
  ∀ key kind, cache.verified.get? key = some kind → later.verified.get? key = some kind

theorem Extends.refl (cache : DescriptorCache) : Extends cache cache := fun _ _ h => h

theorem Extends.trans {a b c : DescriptorCache} (hab : Extends a b) (hbc : Extends b c) :
    Extends a c := fun key kind h => hbc key kind (hab key kind h)

theorem Extends.isSome {cache later : DescriptorCache} (h : Extends cache later)
    {type : String} (hknown : (cache.get? type).isSome = true) :
    (later.get? type).isSome = true := by
  obtain ⟨kind, hkind⟩ := Option.isSome_iff_exists.mp hknown
  exact Option.isSome_iff_exists.mpr ⟨kind, h _ _ hkind⟩

theorem extends_settle (cache : DescriptorCache) (type : String) (kind : MetricKind) :
    Extends cache (cache.settle type kind).2 := by
  intro key known h
  cases hget : cache.get? type with
  | none =>
    have hne : key ≠ .text type := by
      rintro rfl
      rw [show cache.verified.get? _ = none from hget] at h
      cases h
    rw [settle_missing hget, OrderedMap.get?_insert, if_neg hne]
    exact h
  | some other =>
    have hcontains : cache.verified.contains (.text type) = true := by
      rw [OrderedMap.contains, show cache.verified.get? _ = some other from hget]
      rfl
    rwa [settle, OrderedMap.insertNew, if_pos hcontains]

theorem get?_settle (cache : DescriptorCache) (type : String) (kind : MetricKind) :
    (cache.settle type kind).2.get? type = some (cache.settle type kind).1 := by
  cases hget : cache.get? type with
  | none => rw [settle_missing hget, get?, OrderedMap.get?_insert, if_pos rfl]
  | some other =>
    have hknown := extends_settle cache type kind _ _ hget
    rw [settle] at hknown ⊢
    rw [get?, hknown]
    rfl

/-- Nothing is known before the cache is filled. -/
def Clean (cache : DescriptorCache) : Prop :=
  cache.populated = false → ∀ key, cache.verified.get? key = none

theorem clean_empty : Clean empty := fun _ _ => rfl

theorem clean_of_populated {cache : DescriptorCache} (h : cache.populated = true) :
    Clean cache := by
  intro hnot
  rw [h] at hnot
  cases hnot

section Filling

variable {cache filled : DescriptorCache} {calls : List ServiceCall}
  (h : Filling cache filled calls)

include h

theorem Filling.populated : filled.populated = true := by
  cases h with
  | done h => exact h
  | failed => rfl
  | listed => rfl

theorem Filling.extends (hclean : Clean cache) : Extends cache filled := by
  cases h with
  | done => exact Extends.refl cache
  | failed => exact Extends.refl cache
  | listed hnot =>
    intro key kind hkey
    rw [hclean hnot key] at hkey
    cases hkey

theorem Filling.calls_eq_nil (hpop : cache.populated = true) : calls = [] := by
  cases h with
  | done => rfl
  | failed hnot => rw [hpop] at hnot; cases hnot
  | listed hnot => rw [hpop] at hnot; cases hnot

theorem Filling.exists_listing (hnot : cache.populated = false) :
    ∃ outcome, .listing outcome ∈ calls := by
  cases h with
  | done hpop => rw [hpop] at hnot; cases hnot
  | failed => exact ⟨_, List.mem_singleton_self _⟩
  | listed => exact ⟨_, List.mem_singleton_self _⟩

theorem Filling.listing_first : calls.Pairwise fun _ later => later.isListing = false := by
  cases h <;> simp

theorem Filling.attempts_eq : calls.filterMap (·.attempt?) = [] := by
  cases h <;> rfl

theorem Filling.countP_creates (type : String) : calls.countP (·.creates type) = 0 := by
  cases h <;> rfl

theorem Filling.not_creation {e : MetricDescriptor} {outcome : Except Fault Unit} :
    .creation e outcome ∉ calls := by
  cases h <;> simp

/-- The types of a listing that succeeds are known after it. -/
theorem Filling.listed_known {listing : List (Value × MetricKind)}
    (hlisting : .listing (.ok listing) ∈ calls) {type : String}
    (htype : ∃ e ∈ listing, e.1.key? = some (.text type)) : (filled.get? type).isSome = true := by
  cases h with
  | done => cases hlisting
  | failed => simp at hlisting
  | listed _ hlearn =>
    rw [List.mem_singleton] at hlisting
    cases hlisting
    exact learn_known hlearn (Or.inr htype)

end Filling

section Settling

variable {cache after : DescriptorCache} {d : MetricDescriptor} {kind : MetricKind}
  {calls : List ServiceCall} (h : Settling cache d kind after calls)

include h

theorem Settling.populated : after.populated = cache.populated := by
  cases h <;> rfl

theorem Settling.extends : Extends cache after := by
  cases h with
  | hit => exact Extends.refl cache
  | refused => exact Extends.refl cache
  | created hmissing =>
    have hsettled := extends_settle cache d.type d.kind
    rwa [settle_missing hmissing] at hsettled

theorem Settling.kind_eq : kind = (after.get? d.type).getD d.kind := by
  cases h with
  | hit hget => simp [hget]
  | refused hmissing => simp [hmissing]
  | created => simp [get?, OrderedMap.get?_insert]

theorem Settling.attempts_eq :
    calls.filterMap (·.attempt?) = if cache.get? d.type = none then [d] else [] := by
  cases h with
  | hit hget => simp [hget]
  | refused hmissing => simp [hmissing, ServiceCall.attempt?]
  | created hmissing => simp [hmissing, ServiceCall.attempt?]

theorem Settling.isListing_eq_false : ∀ call ∈ calls, call.isListing = false := by
  cases h <;> simp [ServiceCall.isListing]

theorem Settling.countP_creates (type : String) :
    calls.countP (·.creates type) = 0 ∨
      calls.countP (·.creates type) = 1 ∧ (after.get? type).isSome = true := by
  cases h with
  | hit => exact Or.inl rfl
  | refused => exact Or.inl rfl
  | created =>
    by_cases htype : d.type = type
    · simp [ServiceCall.creates, htype, get?, OrderedMap.get?_insert]
    · simp [ServiceCall.creates, htype]

theorem Settling.after_eq {e : MetricDescriptor} {fault : Fault}
    (hfailed : .creation e (.error fault) ∈ calls) : after = cache := by
  cases h with
  | hit => rfl
  | refused => rfl
  | created => simp at hfailed

end Settling

section Steps

variable (client : Client σ) (scope : DescriptorScope) (d : MetricDescriptor)
  (cache : DescriptorCache) (s : σ) (calls : List ServiceCall)

theorem populate_spec (hkeys : client.ListsKeys) :
    ∃ filled s' notices made, Filling cache filled made ∧
      populate client scope cache s = ⟨.ok (), filled, s', notices⟩ ∧
      populate client.noting scope cache (s, calls) =
        ⟨.ok (), filled, (s', calls ++ made), notices⟩ := by
  cases hpop : cache.populated with
  | true =>
    exact ⟨_, _, _, _, .done hpop, populate_of_populated client scope hpop s,
      by rw [populate_of_populated client.noting scope hpop, List.append_nil]⟩
  | false =>
    cases hlist : client.list scope.project scope.filter s with
    | mk outcome s' =>
      have hnoted : client.noting.list scope.project scope.filter (s, calls) =
          (outcome, s', calls ++ [.listing outcome]) := by
        simp [Client.noting, hlist]
      cases outcome with
      | error fault =>
        exact ⟨_, _, _, _, .failed hpop fault, populate_of_failed client scope hpop hlist,
          populate_of_failed client.noting scope hpop hnoted⟩
      | ok listing =>
        have hlisted := hkeys _ _ _ _ _ hlist
        obtain ⟨learned, hlearn, hpopulate⟩ :=
          populate_of_listed client scope hpop hlisted hlist
        obtain ⟨learned', hlearn', hpopulate'⟩ :=
          populate_of_listed client.noting scope hpop hlisted hnoted
        cases hlearn.symm.trans hlearn'
        exact ⟨_, s', [], _, .listed hpop hlearn, hpopulate, hpopulate'⟩

theorem lookUp_spec :
    ∃ kind after s' notices made, Settling cache d kind after made ∧
      lookUp (create client scope d) d.type cache s = ⟨.ok kind, after, s', notices⟩ ∧
      lookUp (create client.noting scope d) d.type cache (s, calls) =
        ⟨.ok kind, after, (s', calls ++ made), notices⟩ := by
  cases hget : cache.get? d.type with
  | some kind =>
    exact ⟨_, _, _, _, _, .hit hget, by rw [lookUp, hget],
      by rw [lookUp, hget, List.append_nil]⟩
  | none =>
    have hsettle := settle_missing hget d.kind
    cases hcreate : client.create scope.project d s with
    | mk outcome s' =>
      have hnoted : client.noting.create scope.project d (s, calls) =
          (outcome, s', calls ++ [.creation d outcome]) := by
        simp [Client.noting, hcreate]
      cases outcome with
      | error fault =>
        exact ⟨_, _, _, _, _, .refused hget fault,
          by rw [lookUp, hget, create, hcreate]; rfl,
          by rw [lookUp, hget, create, hnoted]; rfl⟩
      | ok _ =>
        exact ⟨_, _, _, _, _, .created hget,
          by rw [lookUp, hget, create, hcreate, hsettle],
          by rw [lookUp, hget, create, hnoted, hsettle]⟩

/-- **One lookup.** It fills the cache, then finds the kind of its type; its calls are those
of these two steps. -/
theorem ensure_spec (hkeys : client.ListsKeys) :
    ∃ filled kind after looked created,
      (populate client scope cache s).cache = filled ∧
      Filling cache filled looked ∧ Settling filled d kind after created ∧
      (ensure client scope d cache s).outcome = .ok kind ∧
      (ensure client scope d cache s).cache = after ∧
      (ensure client.noting scope d cache (s, [])).backend.2 = looked ++ created := by
  obtain ⟨filled, s', notices, looked, hfilling, hpop, hpop'⟩ :=
    populate_spec client scope cache s [] hkeys
  obtain ⟨kind, after, s'', notices', created, hsettling, hlook, hlook'⟩ :=
    lookUp_spec client scope d filled s' looked
  refine ⟨filled, kind, after, looked, created, by rw [hpop], hfilling, hsettling, ?_, ?_, ?_⟩
  · rw [ensure, CacheStep.andThen, hpop]
    exact congrArg CacheStep.outcome hlook
  · rw [ensure, CacheStep.andThen, hpop]
    exact congrArg CacheStep.cache hlook
  · rw [ensure, CacheStep.andThen, hpop']
    exact congrArg (fun step => step.backend.2) hlook'

end Steps

/-! ## Failures -/

theorem learn_fault {listing : List (Value × MetricKind)} {cache after : DescriptorCache}
    {fault : Fault} (h : cache.learn listing = (.error fault, after)) :
    ∃ shape, fault = .notKey shape := by
  induction listing generalizing cache with
  | nil => cases h
  | cons e rest ih =>
    rw [learn] at h
    cases hkey : e.1.key? with
    | none =>
      rw [hkey] at h
      cases h
      exact ⟨_, rfl⟩
    | some key =>
      rw [hkey] at h
      exact ih h

section Failures

variable {client : Client σ} {scope : DescriptorScope} {cache : DescriptorCache} {s : σ}
  {fault : Fault}

theorem populate_fault (h : (populate client scope cache s).outcome = .error fault) :
    ∃ shape, fault = .notKey shape := by
  rw [populate] at h
  split at h
  · cases h
  · split at h
    · cases h
    · split at h
      · next hlearn =>
        cases h
        exact learn_fault hlearn
      · cases h

/-- A service that lists keys fails no lookup, and another one only by a type that is no
key. -/
theorem ensure_fault {d : MetricDescriptor}
    (h : (ensure client scope d cache s).outcome = .error fault) :
    (∃ shape, fault = .notKey shape) ∧ ¬ client.ListsKeys := by
  constructor
  · rw [ensure, CacheStep.andThen] at h
    split at h
    · next hpopulate =>
      cases h
      exact populate_fault hpopulate
    · obtain ⟨kind, after, s', notices, -, -, hlook, -⟩ := lookUp_spec client scope d
        (populate client scope cache s).cache (populate client scope cache s).backend []
      simp only [hlook] at h
      cases h
  · intro hkeys
    obtain ⟨_, kind, _, _, _, _, _, _, hkind, _⟩ := ensure_spec client scope d cache s hkeys
    rw [hkind] at h
    cases h

end Failures

end DescriptorCache
end Telemetry

import Telemetry.Backend.Client
import Telemetry.Notice
import Telemetry.Value.Order

/-!
The cache of metric descriptors known to the monitoring service. The first lookup fills it
by one listing; after that a lookup reaches the service only for a type that is not in the
cache. The kind that the service has for a type wins over the one asked for. A listed type
by which no cache can be keyed makes the lookup fail, and the next one lists again.

A lookup is four steps, each of which others may come between: fill the cache once
(`populate`), read it (`get?`), create the descriptor, and settle the kind (`settle`).

- `DescriptorCache.ensure`: a lookup that nothing comes between.
- `DescriptorCache.known`: all known types in order.
-/

namespace Telemetry

/-- What a cache is for: the metric types of a project that start with a text. -/
structure DescriptorScope where
  project : String
  typeStart : String
  deriving DecidableEq, Repr

def DescriptorScope.filter (scope : DescriptorScope) : String :=
  "metric.type = starts_with(\"" ++ scope.typeStart ++ "\")"

/-- The kinds of known types, the listed types as the service spells them, and whether the
listing is done. -/
structure DescriptorCache where
  verified : OrderedMap Value.Key MetricKind := .empty
  spellings : OrderedMap Value.Key Value := .empty
  populated : Bool := false

/-- A cache and the service behind it after a step, with the notices of the step. -/
structure CacheStep (σ α : Type) where
  outcome : Except Fault α
  cache : DescriptorCache
  backend : σ
  notices : List Notice

/-- A step and the one after it, which is left out if the first fails. -/
def CacheStep.andThen {σ α β : Type} (first : CacheStep σ α)
    (next : DescriptorCache → σ → CacheStep σ β) : CacheStep σ β :=
  match first.outcome with
  | .error fault => ⟨.error fault, first.cache, first.backend, first.notices⟩
  | .ok _ =>
    let second := next first.cache first.backend
    { second with notices := first.notices ++ second.notices }

namespace DescriptorCache

variable {σ : Type}

def empty : DescriptorCache := {}

instance : Inhabited DescriptorCache := ⟨empty⟩

def get? (cache : DescriptorCache) (type : String) : Option MetricKind :=
  cache.verified.get? (.text type)

def contains (cache : DescriptorCache) (type : String) : Bool := (cache.get? type).isSome

def size (cache : DescriptorCache) : Nat := cache.verified.size

/-- Forgets every type; the next lookup lists again. -/
def clear (_ : DescriptorCache) : DescriptorCache := empty

/-- Takes over a listing in its order; of a repeated type the last kind counts. A type that
is no key ends it, and what was taken over before stays. -/
def learn (cache : DescriptorCache) :
    List (Value × MetricKind) → Except Fault Unit × DescriptorCache
  | [] => (.ok (), cache)
  | (type, kind) :: rest =>
    match type.key? with
    | none => (.error (.notKey type.shape), cache)
    | some key =>
      learn { cache with
        verified := cache.verified.insert key kind
        spellings := cache.spellings.insertNew key type } rest

/-- Fills the cache by a listing unless that is done. A failed listing counts as done, one
that cannot be taken over does not. -/
def populate (client : Client σ) (scope : DescriptorScope) (cache : DescriptorCache)
    (s : σ) : CacheStep σ Unit :=
  if cache.populated then ⟨.ok (), cache, s, []⟩
  else
    match client.list scope.project scope.filter s with
    | (.error fault, s) =>
      ⟨.ok (), { cache with populated := true }, s,
        [.descriptorsNotListed scope.project fault]⟩
    | (.ok listing, s) =>
      match cache.learn listing with
      | (.error fault, cache) => ⟨.error fault, cache, s, []⟩
      | (.ok _, cache) => ⟨.ok (), { cache with populated := true }, s, []⟩

/-- Settles the kind of a type after its creation: the first to settle wins. -/
def settle (cache : DescriptorCache) (type : String) (requested : MetricKind) :
    MetricKind × DescriptorCache :=
  let verified := cache.verified.insertNew (.text type) requested
  ((verified.get? (.text type)).getD requested, { cache with verified })

/-- A creation that failed: the kind asked for is used and nothing is remembered. -/
def notCreated (d : MetricDescriptor) (fault : Fault) (cache : DescriptorCache) (s : σ) :
    CacheStep σ MetricKind :=
  ⟨.ok d.kind, cache, s, [.descriptorNotCreated d.type fault]⟩

def create (client : Client σ) (scope : DescriptorScope) (d : MetricDescriptor)
    (cache : DescriptorCache) (s : σ) : CacheStep σ MetricKind :=
  match client.create scope.project d s with
  | (.error fault, s) => notCreated d fault cache s
  | (.ok _, s) =>
    let settled := cache.settle d.type d.kind
    ⟨.ok settled.1, settled.2, s, []⟩

/-- Looks a type up after `populate`; a missing one is created as `missing` says. -/
def lookUp (missing : DescriptorCache → σ → CacheStep σ MetricKind) (type : String)
    (cache : DescriptorCache) (s : σ) : CacheStep σ MetricKind :=
  match cache.get? type with
  | some kind => ⟨.ok kind, cache, s, []⟩
  | none => missing cache s

/-- Makes sure that the service has a descriptor of a type: the kind in effect for it. -/
def ensure (client : Client σ) (scope : DescriptorScope) (d : MetricDescriptor)
    (cache : DescriptorCache) (s : σ) : CacheStep σ MetricKind :=
  (populate client scope cache s).andThen (lookUp (create client scope d) d.type)

/-- The known types in order with their kinds, which there is none of if a listing mixed
types of different kinds. -/
def known (cache : DescriptorCache) : Except Fault (List (Value × MetricKind)) :=
  Value.sortBy (·.1) (cache.verified.entries.map fun e =>
    ((cache.spellings.get? e.1).getD e.1.toValue, e.2))

end DescriptorCache
end Telemetry

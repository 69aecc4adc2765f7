import Mathlib.Data.List.Forall2
import Telemetry.Backend.Rest
import Telemetry.Proofs.Backend.Lookup

/-!
Listings that come in pages, and what a cache that is filled by one knows after it.

Proved here:

* `pagesFrom_eq`: a listing makes one call for each page, up to the first page that names no
  other or the first call that fails, and its result is that of all pages together;
* `lookUpAll_quiet`: lookups in a filled cache do not list;
* `listing_whole_or_absent`: hence a cache knows a listing as a whole or nothing of it, and asks
  for it once.
-/

namespace Telemetry

/-! ## Pages -/

/-- A page of a listing: the fields of its descriptors, and the token of the next page. -/
structure ListingPage where
  descriptors : List (List (Value × Value))
  next : Option Value

/-- The type and the kind of a descriptor with these fields, if it has both and the kind is a
metric kind. -/
def described? (fields : List (Value × Value)) : Option (Value × MetricKind) :=
  match Value.entry? "type" fields, Value.entry? "metricKind" fields with
  | some type, some (.text word) => (MetricKind.ofName? word).map fun kind => (type, kind)
  | _, _ => none

/-- The entries of a page. -/
def ListingPage.listed (page : ListingPage) : List (Value × MetricKind) :=
  page.descriptors.filterMap described?

theorem MetricKind.ofName?_eq_some_iff {word : String} {kind : MetricKind} :
    ofName? word = some kind ↔ word = kind.name := by
  constructor
  · intro h
    have hname := List.find?_some h
    simp only [decide_eq_true_eq] at hname
    exact hname.symm
  · rintro rfl
    cases kind <;> rfl

theorem described?_eq_some_iff {fields : List (Value × Value)} {type : Value}
    {kind : MetricKind} :
    described? fields = some (type, kind) ↔
      Value.entry? "type" fields = some type ∧
        Value.entry? "metricKind" fields = some (.text kind.name) := by
  rw [described?]
  split
  · next type' word htype hword =>
    rw [htype, hword, Option.map_eq_some_iff]
    simp only [MetricKind.ofName?_eq_some_iff, Prod.mk.injEq, Option.some.injEq,
      Value.text.injEq]
    constructor
    · rintro ⟨found, hname, rfl, rfl⟩
      exact ⟨rfl, hname⟩
    · rintro ⟨rfl, hname⟩
      exact ⟨kind, hname, rfl, rfl⟩
  · next hnot =>
    constructor
    · intro h
      cases h
    · rintro ⟨htype, hword⟩
      exact absurd hword (hnot _ _ htype)

namespace HttpReply

/-- A reply is a page: an empty success, or an object with a list of objects whose types can be
keys. Without a list there are no descriptors, and a token that counts as false is none. -/
inductive Holds : HttpReply → ListingPage → Prop
  | empty {status : Int} (hstatus : status < 400) : Holds (.response status "") ⟨[], none⟩
  | object {status : Int} {body : String} {entries : List (Value × Value)}
    {descriptors : List (List (Value × Value))} (hstatus : status < 400) (hbody : body ≠ "")
    (hread : Json.read body = .ok (.map entries))
    (hlist : (Value.entry? "metricDescriptors" entries).getD (.list []) =
      .list (descriptors.map .map))
    (hkeys : ∀ fields ∈ descriptors, ∀ type, Value.entry? "type" fields = some type →
      type.key?.isSome = true) :
    Holds (.response status body)
      ⟨descriptors, (Value.entry? "nextPageToken" entries).filter (·.truthy)⟩

/-- A reply is a failure: there is no response, its status is that of an error, or its body is no
JSON. -/
inductive Fails : HttpReply → Prop
  | unreachable (detail : String) : Fails (.failed detail)
  | raised (text : String) : Fails (.raised text)
  | refused {status : Int} {body : String} (hstatus : 400 ≤ status) :
    Fails (.response status body)
  | notJson {status : Int} {body : String} {reason : Unreadable} (hstatus : status < 400)
    (hbody : body ≠ "") (hread : Json.read body = .error reason) :
    Fails (.response status body)

end HttpReply

namespace RestClient

theorem listed_map (fields : List (Value × Value)) :
    listed (.map fields) = .ok (described? fields) := by
  rw [listed, described?]
  cases Value.entry? "type" fields with
  | none => rfl
  | some type =>
    cases Value.entry? "metricKind" fields with
    | none => rfl
    | some kind => cases kind <;> rfl

theorem mapM_listed (descriptors : List (List (Value × Value))) :
    (descriptors.map .map).mapM listed = .ok (descriptors.map described?) := by
  induction descriptors with
  | nil => rfl
  | cons fields rest ih =>
    rw [List.map_cons, List.mapM_cons, ih, listed_map]
    rfl

theorem page_of_holds {reply : HttpReply} {p : ListingPage} (h : reply.Holds p)
    (method url : String) :
    (interpret method url reply).bind page = .ok (p.listed, p.next) := by
  cases h with
  | empty hstatus =>
    rw [interpret, if_neg (Int.not_le.mpr hstatus), if_pos rfl]
    rfl
  | object hstatus hbody hread hlist =>
    rw [interpret, if_neg (Int.not_le.mpr hstatus), if_neg hbody, hread]
    simp only [Except.bind, page, hlist, items]
    simp only [bind, Except.bind, mapM_listed, ListingPage.listed, List.filterMap_map]
    rfl

theorem fault_of_fails {reply : HttpReply} (h : reply.Fails) (method url : String) :
    ∃ fault, interpret method url reply = .error fault := by
  cases h with
  | unreachable detail => exact ⟨_, rfl⟩
  | raised text => exact ⟨_, rfl⟩
  | refused hstatus => exact ⟨_, by rw [interpret, if_pos hstatus]⟩
  | notJson hstatus hbody hread =>
    exact ⟨_, by rw [interpret, if_neg (Int.not_le.mpr hstatus), if_neg hbody, hread]⟩

end RestClient

theorem ListingPage.key_of_mem {reply : HttpReply} {p : ListingPage} (h : reply.Holds p) :
    ∀ e ∈ p.listed, e.1.key?.isSome = true := by
  intro e he
  cases h with
  | empty => cases he
  | object hstatus hbody hread hlist hkeys =>
    obtain ⟨fields, hfields, hdescribed⟩ := List.mem_filterMap.mp he
    exact hkeys fields hfields e.1 (described?_eq_some_iff.mp hdescribed).1

theorem ListingPage.key_of_mem_pages {replies : List HttpReply} {pages : List ListingPage}
    (h : List.Forall₂ HttpReply.Holds replies pages) :
    ∀ e ∈ pages.flatMap (·.listed), e.1.key?.isSome = true := by
  induction h with
  | nil => simp
  | cons hp _ ih =>
    intro e he
    rcases List.mem_append.mp he with he | he
    · exact key_of_mem hp e he
    · exact ih e he

/-! ## Sessions -/

namespace HttpSession

/-- The replies of a session in turn: those that are prepared, and the empty success after
them. -/
def script (s : HttpSession) : List HttpReply := s.replies ++ [.response 200 ""]

theorem send_script {s : HttpSession} {reply : HttpReply} {rest : List HttpReply}
    (h : s.script = reply :: rest) (call : HttpCall) :
    ∃ after, s.send call = (reply, after) ∧ after.calls = s.calls ++ [call] ∧
      (rest ≠ [] → after.script = rest) := by
  obtain ⟨replies, calls, closed⟩ := s
  cases replies with
  | nil =>
    obtain ⟨rfl, rfl⟩ := List.cons.inj h
    exact ⟨_, rfl, rfl, fun hne => absurd rfl hne⟩
  | cons first more =>
    obtain ⟨rfl, rfl⟩ := List.cons.inj h
    exact ⟨_, rfl, rfl, fun _ => rfl⟩

end HttpSession

/-- A script opens with pages, each of which names the next one, and goes on with a reply. -/
def Opens (script : List HttpReply) (earlier : List ListingPage) (reply : HttpReply) : Prop :=
  ∃ first rest, script = first ++ reply :: rest ∧ List.Forall₂ HttpReply.Holds first earlier ∧
    ∀ p ∈ earlier, p.next.isSome = true

/-- A script that opens with a page opens with that page and those after it. -/
theorem Opens.cons {script : List HttpReply} {earlier : List ListingPage} {last : HttpReply}
    (h : Opens script earlier last) {reply : HttpReply} {p : ListingPage} (hp : reply.Holds p)
    (hnext : p.next.isSome = true) : Opens (reply :: script) (p :: earlier) last := by
  obtain ⟨first, rest, rfl, hpages, hnamed⟩ := h
  exact ⟨reply :: first, rest, rfl, .cons hp hpages,
    List.forall_mem_cons.mpr ⟨hnext, hnamed⟩⟩

/-- A session whose replies are pages and failures comes to a page that names no other, or to a
failure. -/
theorem HttpSession.exists_opens (s : HttpSession)
    (h : ∀ reply ∈ s.replies, reply.Fails ∨ ∃ p, reply.Holds p) :
    ∃ earlier reply, Opens s.script earlier reply ∧
      (reply.Fails ∨ ∃ last, reply.Holds last ∧ last.next = none) := by
  obtain ⟨replies, calls, closed⟩ := s
  dsimp only [script] at h ⊢
  induction replies with
  | nil =>
    exact ⟨[], .response 200 "", ⟨[], [], rfl, .nil, nofun⟩,
      Or.inr ⟨_, .empty (by decide), rfl⟩⟩
  | cons reply rest ih =>
    rw [List.forall_mem_cons] at h
    rcases h.1 with hfails | ⟨p, hp⟩
    · exact ⟨[], reply, ⟨[], _, rfl, .nil, nofun⟩, Or.inl hfails⟩
    · cases hnext : p.next with
      | none => exact ⟨[], reply, ⟨[], _, rfl, .nil, nofun⟩, Or.inr ⟨p, hp, hnext⟩⟩
      | some token =>
        obtain ⟨earlier, last, hopens, hlast⟩ := ih h.2
        exact ⟨p :: earlier, last, hopens.cons hp (by rw [hnext]; rfl), hlast⟩

namespace RestClient

variable (c : RestClient) (scope : DescriptorScope)

def pageUrl : String := c.baseUrl ++ "/" ++ (scope.project ++ "/metricDescriptors")

/-- The call for a page of the descriptors of a scope: the first page has no token. -/
def pageCall (token : Option Value) : HttpCall where
  method := "GET"
  url := c.pageUrl scope
  timeout := c.timeout
  payload := .parameters
    (("filter", .text scope.filter) :: token.toList.map fun t => ("pageToken", t))

theorem request_page {s after : HttpSession} {reply : HttpReply} (token : Option Value)
    (h : s.send (c.pageCall scope token) = (reply, after)) :
    c.request "GET" (scope.project ++ "/metricDescriptors")
        (.parameters (pageParameters scope.filter token)) s =
      (interpret "GET" (c.pageUrl scope) reply, after) := by
  have hparameters : pageParameters scope.filter token =
      ("filter", .text scope.filter) :: token.toList.map fun t => ("pageToken", t) := by
    cases token <;> rfl
  rw [pageCall, ← hparameters, pageUrl] at h
  rw [request, pageUrl]
  dsimp only
  rw [h]

/-- **Pages.** A listing makes one call for each page that names another one and one more, and
what comes of that one decides on all of them. -/
theorem pagesFrom_eq {first : List HttpReply} {earlier : List ListingPage}
    (hpages : List.Forall₂ HttpReply.Holds first earlier)
    (hnamed : ∀ p ∈ earlier, p.next.isSome = true) {reply : HttpReply}
    {ending : Except Fault (List (Value × MetricKind))} {rest : List HttpReply}
    (hending : (interpret "GET" (c.pageUrl scope) reply).bind page = ending.map (·, none))
    {fuel : Nat} (hfuel : first.length < fuel) (token : Option Value) {s : HttpSession}
    (hscript : s.script = first ++ reply :: rest) :
    ∃ after, pagesFrom c scope.project scope.filter fuel token s =
        (ending.map (earlier.flatMap (·.listed) ++ ·), after) ∧
      after.calls = s.calls ++ (token :: earlier.map (·.next)).map (c.pageCall scope) := by
  induction hpages generalizing fuel token s with
  | nil =>
    obtain ⟨fuel, rfl⟩ := Nat.exists_eq_succ_of_ne_zero (Nat.ne_zero_of_lt hfuel)
    obtain ⟨after, hsend, hcalls, -⟩ :=
      HttpSession.send_script hscript (c.pageCall scope token)
    refine ⟨after, ?_, hcalls⟩
    simp only [pagesFrom, request_page c scope token hsend, hending]
    cases ending <;> rfl
  | @cons head p later pages hp _ ih =>
    obtain ⟨fuel, rfl⟩ := Nat.exists_eq_succ_of_ne_zero (Nat.ne_zero_of_lt hfuel)
    rw [List.forall_mem_cons] at hnamed
    obtain ⟨next, hnext⟩ := Option.isSome_iff_exists.mp hnamed.1
    obtain ⟨after, hsend, hcalls, hafter⟩ :=
      HttpSession.send_script hscript (c.pageCall scope token)
    obtain ⟨last, hrest, hlast⟩ := ih hnamed.2 (Nat.lt_of_succ_lt_succ hfuel) (some next)
      (hafter (by simp))
    refine ⟨last, ?_, ?_⟩
    · simp only [pagesFrom, request_page c scope token hsend, page_of_holds hp, hnext, hrest]
      cases ending with
      | error fault => rfl
      | ok listing => simp [Except.map]
    · rw [hlast, hcalls, List.append_assoc]
      simp [hnext]

theorem list_eq {earlier : List ListingPage} {reply : HttpReply} {s : HttpSession}
    (h : Opens s.script earlier reply) (ending : Except Fault (List (Value × MetricKind)))
    (hending : (interpret "GET" (c.pageUrl scope) reply).bind page = ending.map (·, none)) :
    ∃ after, c.list scope.project scope.filter s =
        (ending.map (earlier.flatMap (·.listed) ++ ·), after) ∧
      after.calls = s.calls ++ (none :: earlier.map (·.next)).map (c.pageCall scope) := by
  obtain ⟨first, rest, hscript, hpages, hnamed⟩ := h
  have hlength : first.length < s.replies.length + 1 := by
    have hlength := congrArg List.length hscript
    simp only [HttpSession.script, List.length_append, List.length_cons, List.length_nil]
      at hlength
    omega
  exact c.pagesFrom_eq scope hpages hnamed hending hlength none hscript

/-- Whatever is done between them, the later calls of a session are no listings. -/
def PostsAfter (before after : List HttpCall) : Prop :=
  ∃ posts, after = before ++ posts ∧ ∀ call ∈ posts, call.method = "POST"

theorem PostsAfter.refl (calls : List HttpCall) : PostsAfter calls calls :=
  ⟨[], (List.append_nil calls).symm, nofun⟩

theorem PostsAfter.trans {a b d : List HttpCall} (hab : PostsAfter a b) (hbd : PostsAfter b d) :
    PostsAfter a d := by
  obtain ⟨first, rfl, hfirst⟩ := hab
  obtain ⟨second, rfl, hsecond⟩ := hbd
  refine ⟨first ++ second, List.append_assoc .., fun call hcall => ?_⟩
  rcases List.mem_append.mp hcall with hcall | hcall
  · exact hfirst call hcall
  · exact hsecond call hcall

theorem postsAfter_create (project : String) (d : MetricDescriptor) (s : HttpSession) :
    PostsAfter s.calls (c.create project d s).2.calls := by
  refine ⟨[⟨"POST", c.baseUrl ++ "/" ++ (project ++ "/metricDescriptors"), c.timeout,
    .json d.toValue⟩], ?_, by simp⟩
  rw [create, request]
  dsimp only
  rw [HttpSession.send]
  split <;> rfl

end RestClient

/-! ## Caches that are filled by pages -/

namespace DescriptorCache

variable {σ : Type}

/-- Lookups in turn, without a clear between them. -/
def lookUpAll (client : Client σ) (scope : DescriptorScope) :
    List MetricDescriptor → DescriptorCache → σ → List (CacheStep σ MetricKind)
  | [], _, _ => []
  | d :: rest, cache, s =>
    let step := ensure client scope d cache s
    step :: lookUpAll client scope rest step.cache step.backend

open RestClient (PostsAfter)

section Rest

variable (c : RestClient) (scope : DescriptorScope)

/-- After the cache is filled, a lookup creates at most, and returns a kind. -/
theorem lookUp_quiet (d : MetricDescriptor) (cache : DescriptorCache) (s : HttpSession) :
    let step := lookUp (create c.client scope d) d.type cache s
    (∃ kind, step.outcome = .ok kind) ∧ step.cache.populated = cache.populated ∧
      PostsAfter s.calls step.backend.calls := by
  have hposts := c.postsAfter_create scope.project d s
  dsimp only
  rw [lookUp]
  split
  · exact ⟨⟨_, rfl⟩, rfl, .refl s.calls⟩
  · rw [create]
    split
    · next hcreate =>
      rw [show c.create scope.project d s = _ from hcreate] at hposts
      exact ⟨⟨_, rfl⟩, rfl, hposts⟩
    · next hcreate =>
      rw [show c.create scope.project d s = _ from hcreate] at hposts
      exact ⟨⟨_, rfl⟩, rfl, hposts⟩

theorem ensure_quiet {cache : DescriptorCache} {s : HttpSession}
    (hfills : (populate c.client scope cache s).outcome = .ok ()) (d : MetricDescriptor) :
    let step := ensure c.client scope d cache s
    (∃ kind, step.outcome = .ok kind) ∧
      step.cache.populated = (populate c.client scope cache s).cache.populated ∧
      PostsAfter (populate c.client scope cache s).backend.calls step.backend.calls := by
  dsimp only
  rw [ensure, CacheStep.andThen, hfills]
  exact lookUp_quiet c scope d _ _

theorem lookUpAll_quiet {cache : DescriptorCache} {s : HttpSession}
    (hfills : (populate c.client scope cache s).outcome = .ok ())
    (hfilled : (populate c.client scope cache s).cache.populated = true)
    (ds : List MetricDescriptor) :
    ∀ step ∈ lookUpAll c.client scope ds cache s, (∃ kind, step.outcome = .ok kind) ∧
      PostsAfter (populate c.client scope cache s).backend.calls step.backend.calls := by
  induction ds generalizing cache s with
  | nil => simp [lookUpAll]
  | cons d rest ih =>
    obtain ⟨hkind, hpopulated, hposts⟩ := ensure_quiet c scope hfills d
    rw [lookUpAll, List.forall_mem_cons]
    refine ⟨⟨hkind, hposts⟩, fun step hstep => ?_⟩
    have hdone := populate_of_populated c.client scope (hpopulated.trans hfilled)
      (ensure c.client scope d cache s).backend
    obtain ⟨hkind', hposts'⟩ := ih (by rw [hdone]) (by rw [hdone, hpopulated, hfilled]) step hstep
    rw [hdone] at hposts'
    exact ⟨hkind', hposts.trans hposts'⟩

/-- The listing of a session that opens with pages is asked for once.

- `calls`: there is one call for the first page, and one for each page that an earlier one
  names.
- `quiet`: the lookups of a cache, the first of which lists, return kinds and never list
  again. -/
structure AskedOnce (cache : DescriptorCache) (s : HttpSession) (earlier : List ListingPage) :
    Prop where
  calls : (c.list scope.project scope.filter s).2.calls =
    s.calls ++ (none :: earlier.map (·.next)).map (c.pageCall scope)
  quiet : ∀ ds, ∀ step ∈ lookUpAll c.client scope ds cache s,
    (∃ kind, step.outcome = .ok kind) ∧
      PostsAfter (c.list scope.project scope.filter s).2.calls step.backend.calls

/-- All pages are listed.

- `listed`: the listing is that of all pages in their order.
- `known`: the last entry of each listed type is known, and nothing else is new. -/
structure Whole (cache : DescriptorCache) (s : HttpSession) (earlier : List ListingPage)
    (last : ListingPage) : Prop extends AskedOnce c scope cache s earlier where
  listed : (c.list scope.project scope.filter s).1 = .ok ((earlier ++ [last]).flatMap (·.listed))
  known : ∀ key, (populate c.client scope cache s).cache.verified.get? key =
    (lastListed? key ((earlier ++ [last]).flatMap (·.listed))).or (cache.verified.get? key)

/-- The listing fails, and what is known stays as it is. -/
structure Absent (cache : DescriptorCache) (s : HttpSession) (earlier : List ListingPage) :
    Prop extends AskedOnce c scope cache s earlier where
  failed : ∃ fault, (c.list scope.project scope.filter s).1 = .error fault
  unchanged : (populate c.client scope cache s).cache = { cache with populated := true }

section Opens

variable {cache : DescriptorCache} (hnew : cache.populated = false) {s : HttpSession}
  {earlier : List ListingPage} {reply : HttpReply} (h : Opens s.script earlier reply)

include hnew h

theorem whole_of_opens {last : ListingPage} (hlast : reply.Holds last)
    (hend : last.next = none) : Whole c scope cache s earlier last := by
  obtain ⟨after, hlist, hcalls⟩ := c.list_eq scope h (.ok last.listed) (by
    rw [RestClient.page_of_holds hlast, hend]
    rfl)
  have hlisting : c.list scope.project scope.filter s =
      (.ok ((earlier ++ [last]).flatMap (·.listed)), after) := by
    rw [hlist, List.flatMap_append, List.flatMap_singleton]
    rfl
  have hkeys : ∀ e ∈ (earlier ++ [last]).flatMap (·.listed), e.1.key?.isSome = true := by
    obtain ⟨first, rest, -, hpages, -⟩ := h
    exact ListingPage.key_of_mem_pages (List.rel_append hpages (.cons hlast .nil))
  obtain ⟨learned, hlearn, hpopulate⟩ := populate_of_listed c.client scope hnew hkeys hlisting
  refine ⟨⟨by rw [hlist]; exact hcalls, fun ds step hstep => ?_⟩, by rw [hlisting], fun key => ?_⟩
  · have hquiet := lookUpAll_quiet c scope (by rw [hpopulate]) (by rw [hpopulate]) ds step hstep
    rw [hpopulate] at hquiet
    rw [hlist]
    exact hquiet
  · rw [hpopulate]
    have hknown := get?_learn hlearn key
    rwa [List.takeWhile_eq_self_iff.mpr hkeys] at hknown

theorem absent_of_opens (hfails : reply.Fails) : Absent c scope cache s earlier := by
  obtain ⟨fault, hfault⟩ := RestClient.fault_of_fails hfails "GET" (c.pageUrl scope)
  obtain ⟨after, hlist, hcalls⟩ := c.list_eq scope h (.error fault) (by
    rw [hfault]
    rfl)
  have hpopulate := populate_of_failed c.client scope hnew hlist
  refine ⟨⟨by rw [hlist]; exact hcalls, fun ds step hstep => ?_⟩, ⟨fault, by rw [hlist]; rfl⟩,
    by rw [hpopulate]⟩
  have hquiet := lookUpAll_quiet c scope (by rw [hpopulate]) (by rw [hpopulate]) ds step hstep
  rw [hpopulate] at hquiet
  rw [hlist]
  exact hquiet

end Opens

/-- **Listings in pages** are known as a whole or not at all. -/
theorem listing_whole_or_absent {cache : DescriptorCache} (hnew : cache.populated = false)
    (s : HttpSession) :
    (∀ earlier reply last, Opens s.script earlier reply → reply.Holds last → last.next = none →
      Whole c scope cache s earlier last) ∧
    (∀ earlier reply, Opens s.script earlier reply → reply.Fails →
      Absent c scope cache s earlier) ∧
    ((∀ reply ∈ s.replies, reply.Fails ∨ ∃ p, reply.Holds p) →
      ∃ earlier reply, Opens s.script earlier reply ∧
        (reply.Fails ∨ ∃ last, reply.Holds last ∧ last.next = none)) := by
  refine ⟨fun earlier reply last h hlast hend => ?_, fun earlier reply h hfails => ?_,
    s.exists_opens⟩
  · exact whole_of_opens c scope hnew h hlast hend
  · exact absent_of_opens c scope hnew h hfails

end Rest

def plainRest : RestClient := ⟨"https://monitoring/v3", .int 30⟩

def plainScope : DescriptorScope := ⟨"projects/p", "t/"⟩

/-- The fields of a descriptor. -/
def fieldsOf (type kind : String) : List (Value × Value) :=
  [(.text "type", .text type), (.text "metricKind", .text kind)]

/-- A gauge and a type whose kind is not known, before another page. -/
def firstPage : ListingPage :=
  ⟨[fieldsOf "t/load" "GAUGE", fieldsOf "t/odd" "ODD"], some (.text "2")⟩

/-- The gauge of the first page under another kind. -/
def lastPage : ListingPage := ⟨[fieldsOf "t/load" "DELTA"], none⟩

def firstBody : String :=
  "\x7b\"metricDescriptors\":[\x7b\"type\":\"t/load\",\"metricKind\":\"GAUGE\"\x7d," ++
    "\x7b\"type\":\"t/odd\",\"metricKind\":\"ODD\"\x7d],\"nextPageToken\":\"2\"\x7d"

def lastBody : String :=
  "\x7b\"metricDescriptors\":[\x7b\"type\":\"t/load\",\"metricKind\":\"DELTA\"\x7d]\x7d"

theorem holds_firstPage : (HttpReply.response 200 firstBody).Holds firstPage := by
  have hread : Json.read firstBody = .ok (.map
      [(.text "metricDescriptors", .list (firstPage.descriptors.map .map)),
        (.text "nextPageToken", .text "2")]) := by decide +kernel
  exact .object (by decide) (by decide) hread rfl
    (by simp [fieldsOf, Value.entry?, Value.key?])

theorem holds_lastPage : (HttpReply.response 200 lastBody).Holds lastPage := by
  have hread : Json.read lastBody = .ok (.map
      [(.text "metricDescriptors", .list (lastPage.descriptors.map .map))]) := by decide +kernel
  exact .object (by decide) (by decide) hread rfl
    (by simp [fieldsOf, Value.entry?, Value.key?])

/-- A session that answers its calls one after another. -/
def answering (replies : List HttpReply) : HttpSession := ⟨replies, [], false⟩

/-- Both pages are listed, and of the type on both of them the second kind is known; if the
second page fails, the first one is not known either. -/
theorem listing_whole_or_absent_two_pages :
    let whole := answering [.response 200 firstBody, .response 200 lastBody]
    let broken := answering [.response 200 firstBody, .response 503 "busy"]
    Whole plainRest plainScope empty whole [firstPage] lastPage ∧
      (populate plainRest.client plainScope empty whole).cache.get? "t/load" = some .delta ∧
      Absent plainRest plainScope empty broken [firstPage] ∧
      ∃ earlier reply, Opens broken.script earlier reply ∧
        (reply.Fails ∨ ∃ last, reply.Holds last ∧ last.next = none) := by
  intro whole broken
  have hfirst : List.Forall₂ HttpReply.Holds [.response 200 firstBody] [firstPage] :=
    .cons holds_firstPage .nil
  have hopens : Opens whole.script [firstPage] (.response 200 lastBody) :=
    ⟨_, _, rfl, hfirst, by simp [firstPage]⟩
  have hbreaks : Opens broken.script [firstPage] (.response 503 "busy") :=
    ⟨_, _, rfl, hfirst, by simp [firstPage]⟩
  have hbusy : (HttpReply.response 503 "busy").Fails := .refused (by decide)
  have hreplies : ∀ reply ∈ broken.replies, reply.Fails ∨ ∃ p, reply.Holds p := by
    simp only [broken, answering, List.forall_mem_cons]
    exact ⟨Or.inr ⟨_, holds_firstPage⟩, Or.inl hbusy, nofun⟩
  have hnew : empty.populated = false := rfl
  obtain ⟨hwhole, -, -⟩ := listing_whole_or_absent plainRest plainScope hnew whole
  obtain ⟨-, habsent, hcovers⟩ := listing_whole_or_absent plainRest plainScope hnew broken
  have hlisted := hwhole _ _ _ hopens holds_lastPage rfl
  refine ⟨hlisted, ?_, habsent _ _ hbreaks hbusy, hcovers hreplies⟩
  rw [get?, hlisted.known]
  rfl

end DescriptorCache

end Telemetry

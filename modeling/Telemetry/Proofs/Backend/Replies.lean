import Telemetry.Proofs.Backend.Listing
import Telemetry.Proofs.Document.Json
import Telemetry.Proofs.Series.WireForm

/-!
What the replies of the monitoring service come to, for each of the three calls.

Proved here:

* `RestClient.interpret_eq_error_iff`, `interpret_eq_ok_iff`: a reply to a call is broken, or it
  gives a value;
* `RestClient.page_eq_error_iff`: a value is the page of a listing unless it is misshapen;
* `RestClient.listing_eq_error_iff`: a listing fails exactly with what is wrong with a reply that it
  reaches;
* `RestClient.replies_settle`: hence calls that write and create fail with request faults only, and
  a listing besides with a page that is misshapen;
* `RestClient.listings_misshapen`: some pages are.
-/

namespace Telemetry

/-- Going through a list fails with the first of its members that fails. -/
theorem mapM_eq_error_iff {α β ε : Type} {f : α → Except ε β} {xs : List α} {why : ε} :
    xs.mapM f = .error why ↔ ∃ before x after, xs = before ++ x :: after ∧
      (∀ b ∈ before, ∃ y, f b = .ok y) ∧ f x = .error why := by
  induction xs with
  | nil =>
    refine iff_of_false nofun ?_
    rintro ⟨before, x, after, hxs, -⟩
    exact absurd hxs.symm (by simp)
  | cons d rest ih =>
    rw [List.mapM_cons]
    cases hd : f d with
    | error first =>
      constructor
      · intro h
        cases h
        exact ⟨[], d, rest, rfl, nofun, hd⟩
      · rintro ⟨before, x, after, hxs, hbefore, hx⟩
        cases before with
        | nil =>
          obtain ⟨rfl, -⟩ := List.cons.inj hxs
          rw [hx] at hd
          cases hd
          rfl
        | cons b before =>
          obtain ⟨rfl, -⟩ := List.cons.inj hxs
          obtain ⟨y, hy⟩ := hbefore d List.mem_cons_self
          rw [hy] at hd
          cases hd
    | ok y =>
      have hrest : (do let ys ← rest.mapM f; pure (y :: ys) : Except ε (List β)) = .error why ↔
          rest.mapM f = .error why := by
        cases rest.mapM f <;> simp [bind, Except.bind, pure, Except.pure]
      refine hrest.trans (ih.trans ?_)
      constructor
      · rintro ⟨before, x, after, rfl, hbefore, hx⟩
        exact ⟨d :: before, x, after, rfl, List.forall_mem_cons.mpr ⟨⟨y, hd⟩, hbefore⟩, hx⟩
      · rintro ⟨before, x, after, hxs, hbefore, hx⟩
        cases before with
        | nil =>
          obtain ⟨rfl, -⟩ := List.cons.inj hxs
          rw [hx] at hd
          cases hd
        | cons b before =>
          obtain ⟨rfl, hrest⟩ := List.cons.inj hxs
          exact ⟨before, x, after, hrest, (List.forall_mem_cons.mp hbefore).2, hx⟩

/-! ## Replies -/

namespace HttpReply

/-- A reply of the protocol: a response, or none because of a failure on the way. -/
def Answers : HttpReply → Prop
  | .raised _ => False
  | _ => True

/-- What is wrong with a reply to a call: there is no response, its status is that of an error, or
its body is no JSON. -/
inductive Breaks (method url : String) : HttpReply → Fault → Prop
  | unreachable (detail : String) :
    Breaks method url (.failed detail) (.request method url (.unreachable detail))
  | refused {status : Int} {body : String} (hstatus : 400 ≤ status) :
    Breaks method url (.response status body) (.request method url (.status status body))
  | notJson {status : Int} {body : String} {why : Unreadable} (hstatus : status < 400)
    (hbody : body ≠ "") (hread : Json.read body = .error why) :
    Breaks method url (.response status body) (.request method url (.notJson ""))

/-- The value that a reply gives. -/
inductive Gives : HttpReply → Value → Prop
  | empty {status : Int} (hstatus : status < 400) : Gives (.response status "") (.map [])
  | json {status : Int} {body : String} {v : Value} (hstatus : status < 400) (hbody : body ≠ "")
    (hread : Json.read body = .ok v) : Gives (.response status body) v

end HttpReply

namespace RestClient

variable {method url : String} {reply : HttpReply} {fault : Fault} {v : Value}

theorem interpret_of_breaks (h : reply.Breaks method url fault) :
    interpret method url reply = .error fault := by
  cases h with
  | unreachable detail => rfl
  | refused hstatus => rw [interpret, if_pos hstatus]
  | notJson hstatus hbody hread =>
    rw [interpret, if_neg (Int.not_le.mpr hstatus), if_neg hbody, hread]

theorem interpret_of_gives (h : reply.Gives v) : interpret method url reply = .ok v := by
  cases h with
  | empty hstatus => rw [interpret, if_neg (Int.not_le.mpr hstatus), if_pos rfl]
  | json hstatus hbody hread =>
    rw [interpret, if_neg (Int.not_le.mpr hstatus), if_neg hbody, hread]

theorem breaks_or_gives (h : reply.Answers) (method url : String) :
    (∃ fault, reply.Breaks method url fault) ∨ ∃ v, reply.Gives v := by
  cases reply with
  | raised text => exact h.elim
  | failed detail => exact .inl ⟨_, .unreachable detail⟩
  | response status body =>
    by_cases hstatus : 400 ≤ status
    · exact .inl ⟨_, .refused hstatus⟩
    · rw [Int.not_le] at hstatus
      by_cases hbody : body = ""
      · subst hbody
        exact .inr ⟨_, .empty hstatus⟩
      · cases hread : Json.read body with
        | ok v => exact .inr ⟨v, .json hstatus hbody hread⟩
        | error why => exact .inl ⟨_, .notJson hstatus hbody hread⟩

theorem interpret_eq_error_iff (h : reply.Answers) :
    interpret method url reply = .error fault ↔ reply.Breaks method url fault := by
  refine ⟨fun hfails => ?_, interpret_of_breaks⟩
  obtain ⟨why, hbreaks⟩ | ⟨v, hgives⟩ := breaks_or_gives h method url
  · rw [interpret_of_breaks hbreaks] at hfails
    cases hfails
    exact hbreaks
  · rw [interpret_of_gives hgives] at hfails
    cases hfails

theorem interpret_eq_ok_iff (h : reply.Answers) :
    interpret method url reply = .ok v ↔ reply.Gives v := by
  refine ⟨fun hvalue => ?_, interpret_of_gives⟩
  obtain ⟨why, hbreaks⟩ | ⟨w, hgives⟩ := breaks_or_gives h method url
  · rw [interpret_of_breaks hbreaks] at hvalue
    cases hvalue
  · rw [interpret_of_gives hgives] at hvalue
    cases hvalue
    exact hgives

/-! ## Pages -/

/-- A value whose items can be gone through. -/
def IsSequence : Value → Prop
  | .list _ | .map _ | .text _ => True
  | _ => False

/-- A list whose first member that is no map is a given one. -/
def StraysAt (items : List Value) (v : Value) : Prop :=
  ∃ before after, items = before ++ v :: after ∧ (∀ d ∈ before, ∃ fields, d = .map fields) ∧
    ∀ fields, v ≠ .map fields

/-- What is wrong with the value of a page.

- `page`: it is no map.
- `descriptors`: what it has for descriptors cannot be gone through.
- `descriptor`: one of its descriptors is no map. -/
inductive Misshapen : Value → Fault → Prop
  | page {v : Value} (h : ∀ entries, v ≠ .map entries) : Misshapen v (.noAttribute v.shape "get")
  | descriptors {entries : List (Value × Value)} {v : Value}
    (hentry : Value.entry? "metricDescriptors" entries = some v) (h : ¬ IsSequence v) :
    Misshapen (.map entries) (.notIterable v.shape)
  | descriptor {entries : List (Value × Value)} {vs : List Value} {v : Value}
    (hitems : items ((Value.entry? "metricDescriptors" entries).getD (.list [])) = .ok vs)
    (h : StraysAt vs v) : Misshapen (.map entries) (.noAttribute v.shape "get")

theorem listed_eq_error_iff {d : Value} :
    listed d = .error fault ↔ (∀ fields, d ≠ .map fields) ∧ fault = .noAttribute d.shape "get" := by
  cases d with
  | map fields =>
    rw [listed_map]
    exact iff_of_false nofun fun h => h.1 fields rfl
  | _ => simp [listed, eq_comm]

theorem exists_listed_iff {d : Value} : (∃ y, listed d = .ok y) ↔ ∃ fields, d = .map fields := by
  cases d with
  | map fields => exact iff_of_true ⟨_, listed_map fields⟩ ⟨fields, rfl⟩
  | _ => exact iff_of_false nofun nofun

theorem mapM_listed_eq_error_iff {vs : List Value} :
    vs.mapM listed = .error fault ↔ ∃ v, StraysAt vs v ∧ fault = .noAttribute v.shape "get" := by
  rw [mapM_eq_error_iff]
  simp only [listed_eq_error_iff, exists_listed_iff, StraysAt]
  constructor
  · rintro ⟨before, v, after, hvs, hbefore, hv, hfault⟩
    exact ⟨v, ⟨before, after, hvs, hbefore, hv⟩, hfault⟩
  · rintro ⟨v, ⟨before, after, hvs, hbefore, hv⟩, hfault⟩
    exact ⟨before, v, after, hvs, hbefore, hv, hfault⟩

theorem items_eq_error_iff :
    items v = .error fault ↔ ¬ IsSequence v ∧ fault = .notIterable v.shape := by
  cases v <;> simp [items, IsSequence, eq_comm]

theorem page_map_eq_error_iff {entries : List (Value × Value)} {vs : List Value}
    (hitems : items ((Value.entry? "metricDescriptors" entries).getD (.list [])) = .ok vs) :
    page (.map entries) = .error fault ↔ vs.mapM listed = .error fault := by
  rw [page, hitems]
  dsimp only [bind, Except.bind]
  cases vs.mapM listed with
  | error why =>
    constructor <;>
    · intro h
      cases h
      rfl
  | ok found =>
    constructor <;>
    · intro h
      cases h

theorem page_of_not_map (h : ∀ entries, v ≠ .map entries) :
    page v = .error (.noAttribute v.shape "get") := by
  cases v with
  | map entries => exact absurd rfl (h entries)
  | _ => rfl

theorem page_eq_error_iff : page v = .error fault ↔ Misshapen v fault := by
  constructor
  · intro h
    by_cases hmap : ∃ entries, v = .map entries
    · obtain ⟨entries, rfl⟩ := hmap
      cases hitems : items ((Value.entry? "metricDescriptors" entries).getD (.list [])) with
      | ok vs =>
        rw [page_map_eq_error_iff hitems, mapM_listed_eq_error_iff] at h
        obtain ⟨w, hstrays, rfl⟩ := h
        exact .descriptor hitems hstrays
      | error why =>
        obtain ⟨hsequence, rfl⟩ := items_eq_error_iff.mp hitems
        rw [page, hitems] at h
        cases h
        cases hentry : Value.entry? "metricDescriptors" entries with
        | none =>
          rw [hentry] at hsequence
          exact absurd trivial hsequence
        | some w =>
          rw [hentry] at hsequence
          exact .descriptors hentry hsequence
    · rw [not_exists] at hmap
      rw [page_of_not_map hmap] at h
      cases h
      exact .page hmap
  · intro h
    cases h with
    | page hpage => exact page_of_not_map hpage
    | descriptors hentry hsequence =>
      rw [page, hentry, Option.getD_some, items_eq_error_iff.mpr ⟨hsequence, rfl⟩]
      rfl
    | descriptor hitems hstrays =>
      rw [page_map_eq_error_iff hitems, mapM_listed_eq_error_iff]
      exact ⟨_, hstrays, rfl⟩

/-! ## Listings -/

/-- What is wrong with a reply to the call of a listing. -/
inductive ListingBreaks (url : String) : HttpReply → Fault → Prop
  | call {reply : HttpReply} {fault : Fault} (h : reply.Breaks "GET" url fault) :
    ListingBreaks url reply fault
  | page {reply : HttpReply} {v : Value} {fault : Fault} (hgives : reply.Gives v)
    (h : Misshapen v fault) : ListingBreaks url reply fault

/-- The replies that a listing comes to: the first, and after each page that names another one the
next. -/
inductive Reaches : List HttpReply → HttpReply → Prop
  | first {reply : HttpReply} {rest : List HttpReply} : Reaches (reply :: rest) reply
  | next {reply last : HttpReply} {rest : List HttpReply} {v token : Value}
    {found : List (Value × MetricKind)} (hgives : reply.Gives v)
    (hpage : page v = .ok (found, some token)) (h : Reaches rest last) :
    Reaches (reply :: rest) last

/-- The address of a path. -/
def address (c : RestClient) (path : String) : String := c.baseUrl ++ "/" ++ path

/-- The listing of the replies of a session. -/
def listing (url : String) : List HttpReply → Except Fault (List (Value × MetricKind))
  | [] => .ok []
  | reply :: rest =>
    match (interpret "GET" url reply).bind page with
    | .error fault => .error fault
    | .ok (found, none) => .ok found
    | .ok (found, some _) => (listing url rest).map (found ++ ·)

theorem pagesFrom_eq_listing (c : RestClient) (project filter : String) {fuel : Nat}
    {s : HttpSession} (h : s.replies.length < fuel) (token : Option Value) :
    (pagesFrom c project filter fuel token s).1 =
      listing (c.address (project ++ "/metricDescriptors")) s.script := by
  rw [address]
  induction fuel generalizing s token with
  | zero => cases h
  | succ fuel ih =>
    obtain ⟨replies, calls, closed⟩ := s
    cases replies with
    | nil => rfl
    | cons reply rest =>
      simp only [pagesFrom, request, HttpSession.send, HttpSession.script, List.cons_append,
        listing]
      generalize (interpret "GET" _ reply).bind page = turn
      obtain why | ⟨found, _ | next⟩ := turn
      · rfl
      · rfl
      · exact congrArg (Except.map (found ++ ·)) (ih (Nat.lt_of_succ_lt_succ h) (some next))

theorem turn_eq_error_iff {url : String} (h : reply.Answers) :
    (interpret "GET" url reply).bind page = .error fault ↔ ListingBreaks url reply fault := by
  constructor
  · intro hfails
    obtain ⟨why, hbreaks⟩ | ⟨v, hgives⟩ := breaks_or_gives h "GET" url
    · rw [interpret_of_breaks hbreaks] at hfails
      cases hfails
      exact .call hbreaks
    · rw [interpret_of_gives hgives] at hfails
      exact .page hgives (page_eq_error_iff.mp hfails)
  · intro hbreaks
    cases hbreaks with
    | call hbreaks => rw [interpret_of_breaks hbreaks]; rfl
    | page hgives hmisshapen =>
      rw [interpret_of_gives hgives]
      exact page_eq_error_iff.mpr hmisshapen

theorem turn_eq_ok_iff {url : String} {found : List (Value × MetricKind)} {token : Option Value}
    (h : reply.Answers) :
    (interpret "GET" url reply).bind page = .ok (found, token) ↔
      ∃ v, reply.Gives v ∧ page v = .ok (found, token) := by
  have hgives (v : Value) : reply.Gives v ↔ interpret "GET" url reply = .ok v :=
    (interpret_eq_ok_iff h).symm
  simp only [hgives]
  cases interpret "GET" url reply with
  | error why => exact iff_of_false nofun fun ⟨_, hv, _⟩ => nomatch hv
  | ok v => simp [Except.bind]

/-- A listing comes to something wrong in its first reply, or in a later one that this leads to. -/
theorem exists_reaches_cons_iff {url : String} {rest : List HttpReply} (h : reply.Answers) :
    (∃ last, Reaches (reply :: rest) last ∧ ListingBreaks url last fault) ↔
      (interpret "GET" url reply).bind page = .error fault ∨
      (∃ found token, (interpret "GET" url reply).bind page = .ok (found, some token)) ∧
        ∃ last, Reaches rest last ∧ ListingBreaks url last fault := by
  simp only [turn_eq_error_iff h, turn_eq_ok_iff h]
  constructor
  · rintro ⟨last, hreaches, hbreaks⟩
    cases hreaches with
    | first => exact .inl hbreaks
    | next hgives hpage hlater => exact .inr ⟨⟨_, _, _, hgives, hpage⟩, last, hlater, hbreaks⟩
  · rintro (hbreaks | ⟨⟨found, token, v, hgives, hpage⟩, last, hlater, hbreaks⟩)
    · exact ⟨reply, .first, hbreaks⟩
    · exact ⟨last, .next hgives hpage hlater, hbreaks⟩

/-- A listing fails with what is wrong with a reply that it comes to. -/
theorem listing_eq_error_iff {url : String} {script : List HttpReply}
    (h : ∀ reply ∈ script, reply.Answers) :
    listing url script = .error fault ↔
      ∃ reply, Reaches script reply ∧ ListingBreaks url reply fault := by
  induction script with
  | nil => exact iff_of_false nofun fun ⟨_, hreaches, _⟩ => nomatch hreaches
  | cons reply rest ih =>
    rw [List.forall_mem_cons] at h
    rw [exists_reaches_cons_iff h.1, ← ih h.2, listing]
    generalize (interpret "GET" url reply).bind page = turn
    obtain why | ⟨found, _ | next⟩ := turn
    · simp
    · simp
    · cases listing url rest <;> simp [Except.map]

end RestClient

/-! ## Calls -/

/-- The reply to the next call of a session. -/
def HttpSession.nextReply (s : HttpSession) : HttpReply := s.replies.headD (.response 200 "")

theorem HttpSession.answers_nextReply {s : HttpSession}
    (h : ∀ reply ∈ s.replies, reply.Answers) : s.nextReply.Answers := by
  obtain ⟨replies, calls, closed⟩ := s
  cases replies with
  | nil => exact trivial
  | cons reply rest => exact h reply List.mem_cons_self

theorem HttpSession.answers_script {s : HttpSession}
    (h : ∀ reply ∈ s.replies, reply.Answers) : ∀ reply ∈ s.script, reply.Answers := by
  intro reply hreply
  obtain hreply | hreply := List.mem_append.mp hreply
  · exact h reply hreply
  · rw [List.mem_singleton.mp hreply]
    exact trivial

namespace RestClient

variable (c : RestClient) (project : String) {s : HttpSession} {fault : Fault}

theorem request_fst (method path : String) (payload : HttpPayload) (s : HttpSession) :
    (c.request method path payload s).1 =
      interpret method (c.address path) s.nextReply := by
  obtain ⟨replies, calls, closed⟩ := s
  cases replies <;> rfl

/-- Some integer in the records has too many digits to be shown. -/
def TooLong (records : List TimeSeries) : Prop :=
  ∃ r ∈ records, ∃ n ∈ r.point.value.integers, ¬ Decimal.Showable n

/-- Records at times that can be shown make a body, unless an integer is too long. -/
theorem seriesBody_settles {records : List TimeSeries}
    (h : ∀ r ∈ records, r.point.interval.WithinYears) :
    (¬ TooLong records ∧ ∃ body, seriesBody records = .ok body) ∨
      (TooLong records ∧ seriesBody records = .error .integerTooLongToShow) := by
  have hbody : Decimal.Spells (records.flatMap (·.point.value.integers)) _ (seriesBody records) :=
    (Decimal.spells_mapM fun r hr => TimeSeries.spells_toValue (h r hr)).map _
  have hlong : TooLong records ↔
      ∃ n ∈ records.flatMap (·.point.value.integers), ¬ Decimal.Showable n := by
    simp only [TooLong, List.mem_flatMap]
    grind
  generalize seriesBody records = outcome at hbody ⊢
  cases hbody with
  | all hshown =>
    refine Or.inl ⟨fun hnot => ?_, _, rfl⟩
    obtain ⟨n, hn, hnotShown⟩ := hlong.mp hnot
    exact hnotShown (hshown n hn)
  | tooLong hnot => exact Or.inr ⟨hlong.mpr hnot, rfl⟩

/-- **Replies.** If the service answers each call or cannot be reached, writing records at times
that can be shown and creating a descriptor fail exactly with what is wrong with the reply: a
request fault, and for a status of an error one with this status and the body. Records with an
integer that is too long are not sent. A listing fails exactly with what is wrong with a reply that
it comes to, which can also be a page of another shape. -/
theorem replies_settle (hreplies : ∀ reply ∈ s.replies, reply.Answers) :
    (∀ records : List TimeSeries, (∀ r ∈ records, r.point.interval.WithinYears) → ∀ fault,
      (c.write project records s).1 = .error fault ↔
        ¬ TooLong records ∧
            s.nextReply.Breaks "POST" (c.address (project ++ "/timeSeries")) fault ∨
          TooLong records ∧ fault = .integerTooLongToShow) ∧
    (∀ descriptor fault, (c.create project descriptor s).1 = .error fault ↔
      s.nextReply.Breaks "POST" (c.address (project ++ "/metricDescriptors")) fault) ∧
    (∀ filter fault, (c.list project filter s).1 = .error fault ↔
      ∃ reply, Reaches s.script reply ∧
        ListingBreaks (c.address (project ++ "/metricDescriptors")) reply fault) := by
  have hnext := HttpSession.answers_nextReply hreplies
  refine ⟨fun records hrecords fault => ?_, fun descriptor fault => ?_, fun filter fault => ?_⟩
  · rcases seriesBody_settles hrecords with ⟨hshort, body, hbody⟩ | ⟨hlong, hbody⟩
    · rw [write, hbody]
      dsimp only
      rw [map_eq_error_iff, request_fst, interpret_eq_error_iff hnext]
      simp [hshort]
    · rw [write, hbody]
      simp [hlong, eq_comm]
  · rw [create]
    dsimp only
    rw [map_eq_error_iff, request_fst, interpret_eq_error_iff hnext]
  · rw [list, pagesFrom_eq_listing c project filter (Nat.lt_succ_self _) none]
    exact listing_eq_error_iff (HttpSession.answers_script hreplies)

/-- The service that answers a call is busy, at once or after the first page of a listing. -/
theorem replies_settle_busy :
    let service := DescriptorCache.plainRest
    let busy := DescriptorCache.answering [.response 503 "busy"]
    let stopped := DescriptorCache.answering
      [.response 200 DescriptorCache.firstBody, .response 503 "busy"]
    (service.write "projects/p" [TimeSeries.lapCount 1 []] busy).1 = .error (.request "POST"
      (service.address ("projects/p" ++ "/timeSeries")) (.status 503 "busy")) ∧
    (service.list "projects/p" "f" stopped).1 = .error (.request "GET"
      (service.address ("projects/p" ++ "/metricDescriptors")) (.status 503 "busy")) := by
  intro service busy stopped
  have hbusy : ∀ reply ∈ busy.replies, reply.Answers := by
    simp [busy, DescriptorCache.answering, HttpReply.Answers]
  have hstopped : ∀ reply ∈ stopped.replies, reply.Answers := by
    simp [stopped, DescriptorCache.answering, HttpReply.Answers]
  obtain ⟨hwrite, -, -⟩ := replies_settle service "projects/p" hbusy
  obtain ⟨-, -, hlist⟩ := replies_settle service "projects/p" hstopped
  have hrecords : ∀ r ∈ [TimeSeries.lapCount 1 []], r.point.interval.WithinYears := by
    simpa using (TimeSeries.presentable_lapCount 1 []).interval
  have hshort : ¬ TooLong [TimeSeries.lapCount 1 []] := by
    rintro ⟨r, hr, n, hn, hlong⟩
    cases List.mem_singleton.mp hr
    cases List.mem_singleton.mp hn
    exact hlong (by rw [Decimal.Showable]; decide +kernel)
  have hfirst : (HttpReply.response 200 DescriptorCache.firstBody).Answers := trivial
  obtain ⟨v, hgives, hpage⟩ := (turn_eq_ok_iff hfirst).mp
    (page_of_holds DescriptorCache.holds_firstPage "GET" "")
  refine ⟨(hwrite _ hrecords _).mpr (Or.inl ⟨hshort, .refused (by decide)⟩), (hlist _ _).mpr ?_⟩
  exact ⟨_, .next hgives hpage .first, .call (.refused (by decide))⟩

/-- A page that is a list, a page without a list of descriptors, and a descriptor that is no map, on
a later page, make a listing fail with faults that are not about the request. -/
theorem listings_misshapen :
    let service := DescriptorCache.plainRest
    (service.list "projects/p" "f" (DescriptorCache.answering [.response 200 "[]"])).1 =
      .error (.noAttribute .list "get") ∧
    (service.list "projects/p" "f" (DescriptorCache.answering
        [.response 200 "\x7b\"metricDescriptors\": null\x7d"])).1 =
      .error (.notIterable .null) ∧
    (service.list "projects/p" "f" (DescriptorCache.answering
        [.response 200 DescriptorCache.firstBody,
          .response 200 "\x7b\"metricDescriptors\": [1]\x7d"])).1 =
      .error (.noAttribute .int "get") := by
  refine ⟨?_, ?_, ?_⟩ <;> rw [← map_eq_error_iff (f := fun _ => ())] <;> decide +kernel

end RestClient
end Telemetry

import Telemetry.Backend.Client
import Telemetry.Document.Json

/-!
The REST interface of the monitoring service, over a session that answers each call by the
next of its prepared replies, and by an empty success when they are used up.

- `RestClient.connect`: the client of an endpoint, and the headers of its session.
- `RestClient.request`: one call; whatever goes wrong with it is a request fault.
- `RestClient.list`: the descriptors of all pages in order.
-/

namespace Telemetry

inductive HttpReply where
  | response (status : Int) (body : String)
  | failed (detail : String)
  | raised (text : String)
  deriving DecidableEq, Repr

/-- What a call carries: a JSON body, or query parameters. -/
inductive HttpPayload where
  | json (body : Value)
  | parameters (parameters : List (String × Value))

structure HttpCall where
  method : String
  url : String
  timeout : Value
  payload : HttpPayload

/-- A session: the replies still to come, and the calls made, oldest first. -/
structure HttpSession where
  replies : List HttpReply := []
  calls : List HttpCall := []
  closed : Bool := false

namespace HttpSession

instance : Inhabited HttpSession := ⟨{}⟩

def send (call : HttpCall) (s : HttpSession) : HttpReply × HttpSession :=
  match s.replies with
  | [] => (.response 200 "", { s with calls := s.calls ++ [call] })
  | reply :: rest => (reply, { s with replies := rest, calls := s.calls ++ [call] })

end HttpSession

structure RestClient where
  baseUrl : String
  timeout : Value

namespace RestClient

def withoutEndSlashes (endpoint : String) : String :=
  String.ofList (endpoint.toList.reverse.dropWhile (· = '/')).reverse

/-- The client of an endpoint, which has to be a text. -/
def connect (endpoint timeout : Value) : Except Fault RestClient :=
  match endpoint with
  | .text s => .ok ⟨withoutEndSlashes s ++ "/v3", timeout⟩
  | v => .error (.noAttribute v.shape "rstrip")

/-- The name by which the client presents itself unless told otherwise. -/
def defaultUserAgent : String := "stackmetrics"

/-- The headers of a session after a client took it over. An empty token is none. -/
def headers (before : OrderedMap String String) (userAgent : String)
    (token : Option String) : OrderedMap String String :=
  let named := before.insertAll
    [("Content-Type", "application/json"), ("User-Agent", userAgent)]
  match token with
  | none => named
  | some t => if t = "" then named else named.insert "Authorization" ("Bearer " ++ t)

/-- The value that a reply to a call stands for: nothing for an empty body, else its JSON. -/
def interpret (method url : String) : HttpReply → Except Fault Value
  | .failed detail => .error (.request method url (.unreachable detail))
  | .raised text => .error (.raised text)
  | .response status body =>
    if 400 ≤ status then .error (.request method url (.status status body))
    else if body = "" then .ok (.map [])
    else
      match Json.read body with
      | .ok v => .ok v
      | .error _ => .error (.request method url (.notJson ""))

def request (c : RestClient) (method path : String) (payload : HttpPayload)
    (s : HttpSession) : Except Fault Value × HttpSession :=
  let url := c.baseUrl ++ "/" ++ path
  let (reply, s) := s.send ⟨method, url, c.timeout, payload⟩
  (interpret method url reply, s)

def seriesBody (records : List TimeSeries) : Except Fault Value :=
  (records.mapM TimeSeries.toValue).map fun rs => .ofFields [("timeSeries", .list rs)]

def write (c : RestClient) (project : String) (records : List TimeSeries)
    (s : HttpSession) : Except Fault Unit × HttpSession :=
  match seriesBody records with
  | .error fault => (.error fault, s)
  | .ok body =>
    let (reply, s) := c.request "POST" (project ++ "/timeSeries") (.json body) s
    (reply.map fun _ => (), s)

def create (c : RestClient) (project : String) (d : MetricDescriptor) (s : HttpSession) :
    Except Fault Unit × HttpSession :=
  let (reply, s) := c.request "POST" (project ++ "/metricDescriptors") (.json d.toValue) s
  (reply.map fun _ => (), s)

/-- The type and kind of one listed descriptor; nothing if it has no type or a kind that
is not known. -/
def listed (descriptor : Value) : Except Fault (Option (Value × MetricKind)) :=
  match descriptor with
  | .map entries =>
    match Value.entry? "type" entries, Value.entry? "metricKind" entries with
    | some type, some (.text kind) => .ok ((MetricKind.ofName? kind).map fun k => (type, k))
    | _, _ => .ok none
  | v => .error (.noAttribute v.shape "get")

/-- The items of a value that can be gone through: a list, the keys of a map, the
characters of a text. -/
def items : Value → Except Fault (List Value)
  | .list vs => .ok vs
  | .map entries => .ok (entries.map (·.1))
  | .text s => .ok (s.toList.map fun c => .text (String.ofList [c]))
  | v => .error (.notIterable v.shape)

/-- The descriptors of a page, and the token of the next page if there is one. -/
def page (reply : Value) : Except Fault (List (Value × MetricKind) × Option Value) :=
  match reply with
  | .map entries => do
    let descriptors ← items ((Value.entry? "metricDescriptors" entries).getD (.list []))
    let found ← descriptors.mapM listed
    let token := (Value.entry? "nextPageToken" entries).filter (·.truthy)
    return (found.filterMap id, token)
  | v => .error (.noAttribute v.shape "get")

def pageParameters (filter : String) (token : Option Value) : List (String × Value) :=
  ("filter", .text filter) ::
    match token with
    | none => []
    | some t => [("pageToken", t)]

/-- The descriptors of a page and of all that follow it. A page whose reply is the empty
success that ends the session has no token, so there are at most as many pages as replies
and one more. -/
def pagesFrom (c : RestClient) (project filter : String) :
    Nat → Option Value → HttpSession → Except Fault (List (Value × MetricKind)) × HttpSession
  | 0, _, s => (.ok [], s)
  | fuel + 1, token, s =>
    let (reply, s) := c.request "GET" (project ++ "/metricDescriptors")
      (.parameters (pageParameters filter token)) s
    match reply.bind page with
    | .error fault => (.error fault, s)
    | .ok (found, none) => (.ok found, s)
    | .ok (found, some token) =>
      let (later, s) := pagesFrom c project filter fuel (some token) s
      (later.map (found ++ ·), s)

def list (c : RestClient) (project filter : String) (s : HttpSession) :
    Except Fault (List (Value × MetricKind)) × HttpSession :=
  pagesFrom c project filter (s.replies.length + 1) none s

def close (s : HttpSession) : Except Fault Unit × HttpSession :=
  (.ok (), { s with closed := true })

def client (c : RestClient) : Client HttpSession where
  write := c.write
  create := c.create
  list := c.list
  close := close

end RestClient
end Telemetry

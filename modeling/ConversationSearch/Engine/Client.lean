import ConversationSearch.Engine.Bulk
import ConversationSearch.Http.Wire
import ConversationSearch.Json.Place
import ConversationSearch.Settings.Index
import ConversationSearch.Text.Encoding

/-!
# The client of the engine

The client answers calls by requests to a server. A call that changes nothing is tried again after
a transient failure, as often as the settings allow, and the waits in between double. A call that
changes something is tried once. `Client.backend` is the client over a wire as a backend.

Each call has its own reading of a failed request: what a missing index, an engine that is not
there and an unexpected status mean depends on what was asked for.
-/

namespace ConversationSearch

/-- What a client needs to know. -/
structure Client where
  baseUrl : String
  credentials : Option (String × String)
  compression : Bool
  maxRetries : UInt32
  retryBackoffMs : UInt64
  deriving DecidableEq, Repr

namespace Client

/-- A text without the slashes at its end. -/
def withoutFinalSlashes (s : String) : String :=
  String.ofList (s.toList.reverse.dropWhile (· == '/')).reverse

/-- A text without the slashes in front. -/
def withoutLeadingSlashes (s : String) : String :=
  String.ofList (s.toList.dropWhile (· == '/'))

/-- The client that settings describe. -/
def ofSettings (s : IndexSettings) (env : Environment) : Client where
  baseUrl := withoutFinalSlashes s.url
  credentials := s.credentials env
  compression := s.compression
  maxRetries := s.maxRetries
  retryBackoffMs := s.retryBackoffMs

/-! ## Requests -/

/-- The type of bodies that hold a value. -/
def jsonType : String :=
  "application/json"

/-- The type of bodies that hold a value on each line. -/
def linesType : String :=
  "application/x-ndjson"

/-- What the client calls itself. -/
def agent : String :=
  "threadseek/0.1.0"

/-- The name and the password as a header. -/
def authorization (user password : String) : String × String :=
  ("authorization", "Basic " ++ Text.Base64.ofText (user ++ ":" ++ password))

/-- The headers of a request. -/
def headers (c : Client) (contentType : String) : List (String × String) :=
  (if c.compression then [("accept-encoding", "gzip")] else []) ++
    (c.credentials.map fun (user, password) => authorization user password).toList ++
    [("content-type", contentType), ("user-agent", agent)]

/-- The address of a path. -/
def address (c : Client) (path : String) : String :=
  c.baseUrl ++ "/" ++ withoutLeadingSlashes path

/-- A request for a path. -/
def request (c : Client) (method : Method) (path contentType body : String) :
    Except SearchFailure WireRequest := do
  let url ← (Url.parse (c.address path)).mapError fun fault => .queryFailed fault.message
  return { method := method, url := url, headers := c.headers contentType, body := body }

/-! ## Replies -/

/-- A text without the mark that can stand in front of it. -/
def withoutMark (s : String) : String :=
  match s.toList with
  | '\uFEFF' :: cs => String.ofList cs
  | _ => s

/-- The body of an answer. -/
inductive Body
  | whole (text : String)
  /-- The body could not be read to the end. -/
  | broken (reason : String)
  deriving DecidableEq, Repr

/-- The body of a reply, or why there is none. A body behind a status other than one of success is
part of the failure; if it could not be read to the end, nothing of it is kept. -/
def bodyOf : Reply → Except SearchFailure Body
  | .answered status text =>
    if Reply.isSuccess status then .ok (.whole text) else .error (.http status (withoutMark text))
  | .broken status reason =>
    if Reply.isSuccess status then .ok (.broken reason) else .error (.http status "")
  | .dropped => .error (.indexUnavailable "connection failed")
  | .stalled => .error (.indexUnavailable "request timed out")

/-- The value that a body holds. -/
def valueOf (body : Body) : Except SearchFailure Json :=
  let value : Except String Json :=
    match body with
    | .whole text =>
      (Json.parse text).mapError fun fault =>
        "error decoding response body: " ++ fault.messageIn text
    | .broken reason => .error reason
  value.mapError fun reason => .queryFailed ("Invalid response body: " ++ reason)

/-- Sends a request, if it could be made. -/
def send [Monad m] (w : Wire m) (request : Except SearchFailure WireRequest) :
    m (Except SearchFailure Body) := do
  match request with
  | .error f => return .error f
  | .ok r => return bodyOf (← w.send r)

/-! ## Trying again -/

/-- The longest wait, in nanoseconds: sixty-four bits of seconds and all but one of the
nanoseconds of another. -/
def longestWait : Nat :=
  18446744073709551615999999999

/-- The wait after a number of attempts that were tried again, in nanoseconds. It doubles until the
factor fills thirty-two bits. -/
def backoff (base : UInt64) (attempt : Nat) : Nat :=
  min (base.toNat * 1000000 * min (Nat.pow 2 (min attempt 32)) 4294967295) longestWait

/-- Does something again after each transient failure, at most as often as the budget says. -/
def retrying [Monad m] (w : Wire m) (base : UInt64) (once : m (Except SearchFailure α)) :
    (budget attempt : Nat) → m (Except SearchFailure α)
  | 0, _ => once
  | budget + 1, attempt => do
    match ← once with
    | .ok a => return .ok a
    | .error f =>
      if f.isTransient then
        w.pause (backoff base attempt)
        retrying w base once budget (attempt + 1)
      else return .error f

/-! ## What failures mean -/

/-- A status that says that nothing is there means that the index is missing. -/
def notFoundAs (index : String) : SearchFailure → SearchFailure
  | .http 404 _ => .indexNotFound index
  | f => f

/-- The failure of a search. -/
def searchFailure (index : String) (f : SearchFailure) : SearchFailure :=
  match notFoundAs index f with
  | .http status body =>
    if SearchFailure.isTransientStatus status then
      .indexUnavailable (SearchFailure.http status body).message
    else
      .queryFailed ("HTTP " ++ String.ofList (Text.digits status.toNat) ++ ": " ++ body)
  | f => f

/-- The failure of writing documents. -/
def bulkFailure : SearchFailure → SearchFailure
  | .indexUnavailable reason => .indexUnavailable reason
  | f => .indexing f.message

/-- The failure of creating or deleting an index. -/
def provisioningFailure (index : String) : SearchFailure → SearchFailure
  | .indexUnavailable reason => .indexUnavailable reason
  | f => .provisioning index f.message

/-- The failure of deleting an index. -/
def deletionFailure (index : String) (f : SearchFailure) : SearchFailure :=
  match notFoundAs index f with
  | .indexNotFound _ => .indexNotFound index
  | f => provisioningFailure index f

/-- Whether an index is there, by what a request for it gave. -/
def existence : Except SearchFailure Body → Except SearchFailure Bool
  | .ok _ => .ok true
  | .error (.http 404 _) => .ok false
  | .error f => .error f

/-- The mappings of an index in a response. Behind an alias the response names the index
differently, and its first member counts. -/
def mappingsIn (index : String) (response : Json) : Except SearchFailure Json :=
  let entry := response.get? index <|>
    match response with
    | .object members => members.head?.map (·.2)
    | _ => none
  match entry.bind (·.get? "mappings") with
  | some mappings => .ok mappings
  | none => .error (.schema ("No mappings returned for '" ++ index ++ "'"))

/-! ## Calls -/

/-- Whether a call changes nothing. -/
def isRead : Call → Bool
  | .search _ _ | .indexExists _ | .getMapping _ | .ping | .health | .info => true
  | .bulkIndex _ _ | .createIndex _ _ | .deleteIndex _ => false

/-- The request that a call makes. -/
def requestOf (c : Client) : Call → Except SearchFailure WireRequest
  | .search index body => c.request .post (index ++ "/_search") jsonType body.compact
  | .bulkIndex index documents =>
    c.request .post "_bulk?refresh=true" linesType (Bulk.body index documents)
  | .indexExists index => c.request .head index jsonType ""
  | .createIndex index body => c.request .put index jsonType body.compact
  | .deleteIndex index => c.request .delete index jsonType ""
  | .getMapping index => c.request .get (index ++ "/_mapping") jsonType ""
  | .ping => c.request .head "" jsonType ""
  | .health => c.request .get "_cluster/health" jsonType ""
  | .info => c.request .get "" jsonType ""

/-- The answer to a call, by the body that its request gave in the end. -/
def answerOf : (call : Call) → Except SearchFailure Body → call.Answer
  | .search index _, body =>
    ((body.bind valueOf).mapError (searchFailure index)).bind EngineResponse.ofJson
  | .bulkIndex index documents, body =>
    ((body.bind valueOf).mapError bulkFailure).bind (Bulk.outcome index documents.length)
  | .indexExists _, body => existence body
  | .createIndex index _, body => (body.bind valueOf).mapError (provisioningFailure index)
  | .deleteIndex index, body => (body.map fun _ => ()).mapError (deletionFailure index)
  | .getMapping index, body =>
    ((body.bind valueOf).mapError (notFoundAs index)).bind (mappingsIn index)
  | .ping, body => body.isOk
  | .health, body => body.bind valueOf
  | .info, body => body.bind valueOf

/-- Sends the request of a call, and where the call changes nothing again as often as the client
may. -/
def exchange [Monad m] (c : Client) (w : Wire m) (call : Call) : m (Except SearchFailure Body) :=
  let budget := if isRead call then c.maxRetries.toNat else 0
  retrying w c.retryBackoffMs (send w (c.requestOf call)) budget 0

/-- Makes a call. Where there are no documents to be written nothing is sent. -/
def perform [Monad m] (c : Client) (w : Wire m) : (call : Call) → m call.Answer
  | .bulkIndex _ [] => return .ok 0
  | call => return answerOf call (← c.exchange w call)

/-- The client over a wire as a backend. -/
def backend (c : Client) (w : Wire (StateM σ)) : Backend σ := fun call =>
  c.perform w call

end Client
end ConversationSearch

import ConversationSearch.Http.Failure
import ConversationSearch.Http.MediaType
import ConversationSearch.Provisioning
import ConversationSearch.Service

/-!
# The interface

The interface has six routes, each for one method. A route for `GET` answers `HEAD` too, without a
body. Another method on a route, or another path, is answered without asking anyone; `OPTIONS` is
answered on any path. What follows a question mark or a number sign in a path does not count.

A body is decoded before anything is asked of the engine. It has to be declared as JSON and must not
be too long, and what follows its first value is not looked at. A document on which no report can be
made ends the request without a response.
-/

namespace ConversationSearch

open Json (Decoder)

/-- A request over HTTP. -/
structure HttpRequest where
  method : String
  path : String
  contentType : Option String := none
  body : String := ""
  deriving DecidableEq, Repr

/-- A response over HTTP. -/
structure HttpResponse where
  status : Nat
  /-- The methods of the route, when the method of the request is none of them. -/
  allow : Option String := none
  contentType : Option String := none
  /-- The value of the body; without it the body is empty. -/
  body : Option Json := none
  deriving DecidableEq

namespace HttpResponse

/-- The type of bodies that hold a value. -/
def jsonType : String :=
  "application/json"

/-- A response that holds a value. -/
def json (status : Nat) (value : Json) : HttpResponse :=
  { status := status, contentType := some jsonType, body := some value }

/-- The response to a request that fails. -/
def ofFailure (f : ApiFailure) : HttpResponse :=
  json f.kind.status f.toJson

/-- The response with its body left out. -/
def withoutBody (r : HttpResponse) : HttpResponse :=
  { r with body := none }

/-- The response on a path that is no route. -/
def unknownPath : HttpResponse :=
  { status := 404 }

/-- The response to a method that a route does not have. -/
def wrongMethod (allow : String) : HttpResponse :=
  { status := 405, allow := some allow }

/-- The response to a request for the options. -/
def options : HttpResponse :=
  { status := 200 }

end HttpResponse

/-- What the interface offers. -/
inductive Route
  /-- Whether the server is there. -/
  | liveness
  | search
  /-- How the engine is. -/
  | clusterHealth
  /-- Prepare the indices. -/
  | setup
  /-- Inspect the indices. -/
  | mappings
  /-- Write documents. -/
  | indexData
  deriving DecidableEq, Repr

namespace Route

/-- The routes by their paths. -/
def table : List (String × Route) :=
  [("/health", .liveness),
   ("/api/search", .search),
   ("/api/search/health", .clusterHealth),
   ("/api/search/setup", .setup),
   ("/api/search/mappings", .mappings),
   ("/api/search/index-data", .indexData)]

/-- The path without the query and the fragment. -/
def plainPath (path : String) : String :=
  String.ofList (path.toList.takeWhile fun c => c != '?' && c != '#')

/-- The route with a path. -/
def ofPath? (path : String) : Option Route :=
  table.lookup (plainPath path)

/-- Whether the route only looks and answers `GET`; the others answer `POST`. -/
def isRead : Route → Bool
  | .liveness | .clusterHealth | .mappings => true
  | .search | .setup | .indexData => false

/-- The methods of the route. -/
def allow (r : Route) : String :=
  if r.isRead then "GET,HEAD" else "POST"

end Route

namespace Interface

/-- The version of the server. -/
def version : String :=
  "0.1.0"

/-- What the server says of itself. -/
def liveness : HttpResponse :=
  .json 200 (.object [("status", .string "healthy"), ("version", .string version)])

/-- Whether a request declares its body as JSON. -/
def declaresJson (r : HttpRequest) : Bool :=
  (r.contentType.bind MediaType.parse?).any (·.isJson)

/-- The bytes that a body may have: two mebibytes. -/
def bodyLimit : Nat :=
  2097152

/-- Whether the body of a request is not too long. -/
def bodyFits (r : HttpRequest) : Bool :=
  r.body.utf8ByteSize ≤ bodyLimit

/-- The wording for a body that does not decode. -/
def bodyFault (f : Json.Failure) : String :=
  (if f.isUnreadable then "Failed to parse the request body as JSON: "
    else "Failed to deserialize the JSON body into the target type: ") ++ f.placedMessage

/-- Decodes the body of a request. -/
def decodeBody (d : Decoder α) (r : HttpRequest) : Except ApiFailure α :=
  if !declaresJson r then
    .error ⟨.validation, "Expected request with `Content-Type: application/json`"⟩
  else if !bodyFits r then
    .error ⟨.validation, "Failed to buffer the request body: length limit exceeded"⟩
  else (d.ofFront r.body).mapError fun f => ⟨.validation, bodyFault f⟩

/-- The response to a search. -/
def search (b : Backend σ) (s : IndexSettings) (r : HttpRequest) : StateM σ HttpResponse := do
  match decodeBody Request.decoder r with
  | .error f => return .ofFailure f
  | .ok request =>
    match ← Service.search b s request with
    | .error f => return .ofFailure (.ofSearch f)
    | .ok response => return .json 200 response.toJson

/-- The response that says how the engine is. -/
def clusterHealth (b : Backend σ) : StateM σ HttpResponse := do
  return .json 200 (← Service.health b).toJson

/-- The response to preparing the indices. The report is given even where it is not a success. -/
def setup (b : Backend σ) (s : IndexSettings) : StateM σ HttpResponse := do
  match ← Provisioning.provision b s with
  | .error f => return .ofFailure (.ofSearch f)
  | .ok report => return .json (if report.success then 200 else 500) report.toJson

/-- The inspected mappings as a JSON value. -/
def mappingsJson (mappings : List IndexMapping) : Json :=
  .object
    [("mappings", .array (mappings.map IndexMapping.toJson)),
     ("valid", .bool (mappings.all (·.verification.isValid)))]

/-- The response to inspecting the indices. -/
def mappings (b : Backend σ) (s : IndexSettings) : StateM σ HttpResponse := do
  match ← Provisioning.inspect b s with
  | .error f => return .ofFailure (.ofSearch f)
  | .ok mappings => return .json 200 (mappingsJson mappings)

/-- The response to writing documents. -/
def indexData (b : Backend σ) (s : IndexSettings) (r : HttpRequest) :
    StateM σ (Except Clash HttpResponse) := do
  match decodeBody Documents.decoder r with
  | .error f => return .ok (.ofFailure f)
  | .ok documents =>
    match ← Service.indexDocuments b s documents with
    | .error (.clash c) => return .error c
    | .error (.failure f) => return .ok (.ofFailure (.ofSearch f))
    | .ok summary => return .ok (.json 200 summary.toJson)

/-- The response of a route to its own method. -/
def answer (b : Backend σ) (s : IndexSettings) (r : HttpRequest) :
    Route → StateM σ (Except Clash HttpResponse)
  | .liveness => return .ok liveness
  | .search => return .ok (← search b s r)
  | .clusterHealth => return .ok (← clusterHealth b)
  | .setup => return .ok (← setup b s)
  | .mappings => return .ok (← mappings b s)
  | .indexData => indexData b s r

/-- The response of a route to a request with any method. -/
def answerMethod (b : Backend σ) (s : IndexSettings) (r : HttpRequest) (route : Route) :
    StateM σ (Except Clash HttpResponse) := do
  if route.isRead && r.method == "HEAD" then
    return (← answer b s r route).map HttpResponse.withoutBody
  else if r.method == (if route.isRead then "GET" else "POST") then answer b s r route
  else return .ok (.wrongMethod route.allow)

/-- The response to a request. -/
def respond (b : Backend σ) (s : IndexSettings) (r : HttpRequest) :
    StateM σ (Except Clash HttpResponse) := do
  if r.method == "OPTIONS" then return .ok .options
  else
    match Route.ofPath? r.path with
    | none => return .ok .unknownPath
    | some route => answerMethod b s r route

end Interface
end ConversationSearch

import ConversationSearch.CommandLine.Command
import ConversationSearch.Http.Wire
import ConversationSearch.Json.Place
import ConversationSearch.Json.Printer

/-!
# Performing commands

A command is performed by one request, a look at the health by two. What the server answers is
printed over several lines, also where its status is none of success; the code at the end tells
the two apart. Nothing is printed unless every answer is JSON.
-/

namespace ConversationSearch.CommandLine

/-- What a run of the program leaves behind. -/
structure Outcome where
  code : UInt32
  output : String := ""
  complaint : Option String := none
  deriving DecidableEq, Repr

namespace Outcome

/-- A value, printed. -/
def printed (j : Json) : Outcome :=
  { code := 0, output := j.pretty ++ "\n" }

/-- A run that failed without printing. -/
def failed (reason : String) : Outcome :=
  { code := 1, complaint := some reason }

/-- A command line that cannot be understood, or one that asks for help. -/
def ofUsage (fault : UsageFault) : Outcome :=
  { code := if fault = .helpWanted then 0 else 2, complaint := some fault.message }

/-- An answer with its status. -/
def ofAnswer : Except String (UInt16 × Json) → Outcome
  | .error reason => failed reason
  | .ok (status, j) =>
    if Reply.isSuccess status then printed j
    else
      { printed j with
        code := 1
        complaint := some
          ("server responded with " ++ String.ofList (Text.digits status.toNat)) }

end Outcome

namespace Invocation

/-- A request to the server, with or without a value. -/
def request (i : Invocation) (method : Method) (path : String) (value : Option Json) :
    Except String WireRequest := do
  let url ← (Url.parse (i.endpoint ++ path)).mapError UrlFault.message
  return {
    method := method
    url := url
    headers := ("accept-encoding", "gzip") ::
      (value.map fun _ => ("content-type", "application/json")).toList
    body := (value.map Json.compact).getD "" }

/-- The value in a reply, and the status. -/
def answerOf : Reply → Except String (UInt16 × Json)
  | .answered status body =>
    match Json.parse body with
    | .ok j => .ok (status, j)
    | .error fault => .error ("error decoding response body: " ++ fault.messageIn body)
  | .broken _ reason => .error reason
  | .dropped => .error "connection failed"
  | .stalled => .error "request timed out"

/-- Sends a request. -/
def fetch [Monad m] (i : Invocation) (w : Wire m) (method : Method) (path : String)
    (value : Option Json) : m (Except String (UInt16 × Json)) := do
  match i.request method path value with
  | .error reason => return .error reason
  | .ok r => return answerOf (← w.send r)

/-- Looks at the health of the server and, if it answers, at that of the engine. -/
def lookAtHealth [Monad m] (i : Invocation) (w : Wire m) : m Outcome := do
  match ← i.fetch w .get "/health" none with
  | .error reason => return .failed reason
  | .ok (_, server) =>
    match ← i.fetch w .get "/api/search/health" none with
    | .error reason => return .failed reason
    | .ok (_, cluster) =>
      return .printed (.object [("cluster", cluster), ("server", server)])

/-- Writes the documents in a text. -/
def writeDocuments [Monad m] (i : Invocation) (w : Wire m) (content : String) : m Outcome := do
  match Json.parse content with
  | .error fault => return .failed (fault.messageIn content)
  | .ok documents =>
    return .ofAnswer (← i.fetch w .post "/api/search/index-data" (some documents))

/-- Performs a command. Files are read by the given function, which gives nothing for a file that
cannot be read. -/
def perform [Monad m] (i : Invocation) (w : Wire m) (contentOf : String → m (Option String)) :
    m Outcome := do
  match i.command with
  | .search request =>
    return .ofAnswer (← i.fetch w .post "/api/search" (some request.declaredJson))
  | .setup => return .ofAnswer (← i.fetch w .post "/api/search/setup" none)
  | .mappings => return .ofAnswer (← i.fetch w .get "/api/search/mappings" none)
  | .health => i.lookAtHealth w
  | .index file =>
    match ← contentOf file with
    | none => return .failed ("cannot read " ++ file)
    | some content => i.writeDocuments w content

end Invocation

/-- Runs the program with its arguments. -/
def run [Monad m] (w : Wire m) (contentOf : String → m (Option String)) (args : List String) :
    m Outcome := do
  match Invocation.parse args with
  | .error fault => return .ofUsage fault
  | .ok i => i.perform w contentOf

end ConversationSearch.CommandLine

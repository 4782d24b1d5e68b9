import ConversationSearch.Engine.Call
import ConversationSearch.Hits.Normalize
import ConversationSearch.Search.Compile
import ConversationSearch.Settings.Index
import ConversationSearch.Validation

/-!
# The search service

The service runs searches and writes documents. Before a search it makes sure, where the settings
ask for it, that the engine answers a ping. Documents are validated, all of them, before the first
is written; conversations are written before messages.
-/

namespace ConversationSearch

open Json (Shape Decoder)

/-- What a ping, a look at the health of the engine and one at its version gave. -/
structure HealthReport where
  ping : Bool
  health : Option Json
  info : Option Json
  error : Option String
  deriving DecidableEq

namespace HealthReport

/-- The members of a report. -/
def shape : Shape HealthReport :=
  HealthReport.mk
    <$> .required "ping" Decoder.bool
    <*> .optional "health" Decoder.json
    <*> .optional "info" Decoder.json
    <*> .optional "error" Decoder.string

/-- Reads a report. -/
def decoder : Decoder HealthReport :=
  shape.decoder "HealthReport"

/-- The report as a JSON value. -/
def toJson (r : HealthReport) : Json :=
  .object
    [("error", .ofText? r.error),
     ("health", r.health.getD .null),
     ("info", r.info.getD .null),
     ("ping", .bool r.ping)]

end HealthReport

/-- How many documents of each kind were written. -/
structure IndexSummary where
  conversations : Nat
  messages : Nat
  deriving DecidableEq, Repr

namespace IndexSummary

/-- The members of a summary. -/
def shape : Shape IndexSummary :=
  IndexSummary.mk
    <$> .required "conversations" (Decoder.natural 64 "usize")
    <*> .required "messages" (Decoder.natural 64 "usize")

/-- Reads a summary. -/
def decoder : Decoder IndexSummary :=
  shape.decoder "IndexSummary"

/-- The summary as a JSON value. -/
def toJson (s : IndexSummary) : Json :=
  .object [("conversations", .nat s.conversations), ("messages", .nat s.messages)]

end IndexSummary

/-- Documents to be written. -/
structure Documents where
  conversations : List Conversation := []
  messages : List Message := []
  deriving DecidableEq

namespace Documents

/-- The members of documents to be written. -/
def shape : Shape Documents :=
  Documents.mk
    <$> .defaulted "conversations" (Decoder.list Conversation.decoder) []
    <*> .defaulted "messages" (Decoder.list Message.decoder) []

/-- Reads documents to be written. -/
def decoder : Decoder Documents :=
  shape.decoder "IndexDataRequest"

/-- The documents as a JSON value. -/
def toJson (d : Documents) : Json :=
  .object
    [("conversations", .array (d.conversations.map Conversation.toJson)),
     ("messages", .array (d.messages.map Message.toJson))]

end Documents

/-- Why documents were not written: something failed, or one of them could not be reported on. -/
inductive IndexingStop
  | failure (f : SearchFailure)
  | clash (c : Clash)
  deriving DecidableEq

namespace Service

/-- The failure of a document that breaks a rule. -/
def invalid (kind id : String) (report : Report) : IndexingStop :=
  .failure (.invalidDocument (kind ++ " " ++ id ++ ": " ++ report.text))

/-- Accepts a conversation that keeps the rules. -/
def checkConversation (c : Conversation) : Except IndexingStop Unit :=
  match c.validate with
  | .error clash => .error (.clash clash)
  | .ok report => if report.isValid then .ok () else .error (invalid "conversation" c.id report)

/-- Accepts a message that keeps the rules. -/
def checkMessage (m : Message) : Except IndexingStop Unit :=
  if m.validate.isValid then .ok () else .error (invalid "message" m.id m.validate)

/-- Accepts documents that keep the rules; the first that does not is named. -/
def check (d : Documents) : Except IndexingStop Unit := do
  d.conversations.forM checkConversation
  d.messages.forM checkMessage

/-- A conversation under its id. -/
def conversationEntry (c : Conversation) : BulkDocument :=
  ⟨c.id, c.toJson⟩

/-- A message under its id. -/
def messageEntry (m : Message) : BulkDocument :=
  ⟨m.id, m.toJson⟩

/-- Writes documents, conversations first. -/
def write (b : Backend σ) (s : IndexSettings) (d : Documents) :
    StateM σ (Except SearchFailure IndexSummary) := do
  let conversations := d.conversations.map conversationEntry
  match ← b.ask (.bulkIndex (s.indexName .conversation) conversations) with
  | .error f => return .error f
  | .ok conversationCount =>
    let messages := d.messages.map messageEntry
    match ← b.ask (.bulkIndex (s.indexName .message) messages) with
    | .error f => return .error f
    | .ok messageCount => return .ok ⟨conversationCount, messageCount⟩

/-- Validates documents and writes them. -/
def indexDocuments (b : Backend σ) (s : IndexSettings) (d : Documents) :
    StateM σ (Except IndexingStop IndexSummary) := do
  match check d with
  | .error stop => return .error stop
  | .ok () => return (← write b s d).mapError .failure

/-- The failure of a search when the engine does not answer a ping. -/
def noAnswer : SearchFailure :=
  .indexUnavailable "Failed to connect to the search cluster"

/-- A missing index is no fault of the request: the engine was never prepared. -/
def missingIndex : SearchFailure → SearchFailure
  | .indexNotFound index => .queryFailed ("index '" ++ index ++ "' does not exist")
  | f => f

/-- Runs a compiled search and reads the hits. -/
def runSearch (b : Backend σ) (s : IndexSettings) (compiled : CompiledSearch) :
    StateM σ (Except SearchFailure SearchResponse) := do
  match ← b.ask (.search (s.indexName compiled.target) compiled.body) with
  | .error f => return .error (missingIndex f)
  | .ok raw => return raw.normalize compiled.target

/-- Compiles a request and runs it. -/
def compileAndSearch (b : Backend σ) (s : IndexSettings) (r : Request) :
    StateM σ (Except SearchFailure SearchResponse) := do
  match compile s.enableHighlighting r with
  | .error f => return .error f
  | .ok compiled => runSearch b s compiled

/-- Searches, where the settings ask for it only if the engine answers a ping. -/
def search (b : Backend σ) (s : IndexSettings) (r : Request) :
    StateM σ (Except SearchFailure SearchResponse) := do
  if s.preflightPing then
    if ← b.ask .ping then compileAndSearch b s r
    else return .error noAnswer
  else compileAndSearch b s r

/-- Looks at the engine from all sides, each on its own. -/
def health (b : Backend σ) : StateM σ HealthReport := do
  let answered ← b.ask .ping
  let health ← b.ask .health
  let info ← b.ask .info
  return {
    ping := answered
    health := health.toOption
    info := info.toOption
    error := if answered then none else some "Search cluster did not answer ping" }

end Service
end ConversationSearch

import ConversationSearch.Engine.Memory
import ConversationSearch.Http.Interface

/-!
# Sessions

A session is a sequence of steps against an engine in memory: searches, writes, provisioning and
requests over HTTP, and between them changes to the engine itself, which make it fail, become
reachable or hold other indices. Each step has an outcome, and the calls that it made are kept.
-/

namespace ConversationSearch

/-- A change to an engine in memory; what is absent stays. -/
structure EngineChange where
  unreachable : Option Bool := none
  faults : Option (List (String × SearchFailure)) := none
  liveMappings : Option (List (String × Json)) := none
  rawSearch : Option (Option Json) := none
  indices : Option (List (String × StoredIndex)) := none

/-- The engine after a change. -/
def EngineChange.apply (c : EngineChange) (m : MemoryEngine) : MemoryEngine where
  unreachable := c.unreachable.getD m.unreachable
  faults := c.faults.getD m.faults
  liveMappings := c.liveMappings.getD m.liveMappings
  rawSearch := c.rawSearch.getD m.rawSearch
  indices := c.indices.getD m.indices

/-- A step of a session. -/
inductive SessionStep
  | change (c : EngineChange)
  | compile (r : Request)
  | settings
  | search (r : Request)
  | index (d : Documents)
  | health
  | provision
  | inspect
  | http (r : HttpRequest)

/-- What comes of a step. -/
inductive SessionOutcome
  | changed
  | compiled (r : Request) (c : CompiledSearch)
  | settings (s : IndexSettings)
  | found (r : SearchResponse)
  | indexed (s : IndexSummary)
  | health (r : HealthReport)
  | provisioned (r : ProvisionReport)
  | inspected (mappings : List IndexMapping)
  | responded (r : HttpResponse)
  | failed (f : SearchFailure)
  | clashed (c : Clash)

namespace SessionOutcome

/-- The outcome of something that can fail. -/
def ofExcept (f : α → SessionOutcome) : Except SearchFailure α → SessionOutcome
  | .error failure => .failed failure
  | .ok a => f a

/-- The outcome of writing documents. -/
def ofIndexing : Except IndexingStop IndexSummary → SessionOutcome
  | .error (.failure f) => .failed f
  | .error (.clash c) => .clashed c
  | .ok s => .indexed s

/-- The outcome of a request over HTTP. -/
def ofHttp : Except Clash HttpResponse → SessionOutcome
  | .error c => .clashed c
  | .ok r => .responded r

end SessionOutcome

namespace Session

/-- Takes a step that is no change to the engine, on any backend. -/
def takeOn (b : Backend σ) (s : IndexSettings) : SessionStep → StateM σ SessionOutcome
  | .change _ => return .changed
  | .compile r =>
    return .ofExcept (.compiled r) (ConversationSearch.compile s.enableHighlighting r)
  | .settings => return .settings s
  | .search r => return .ofExcept .found (← Service.search b s r)
  | .index d => return .ofIndexing (← Service.indexDocuments b s d)
  | .health => return .health (← Service.health b)
  | .provision => return .ofExcept .provisioned (← Provisioning.provision b s)
  | .inspect => return .ofExcept .inspected (← Provisioning.inspect b s)
  | .http r => return .ofHttp (← Interface.respond b s r)

/-- Takes a step: its outcome, the calls it made, and the engine after it. -/
def take (s : IndexSettings) (step : SessionStep) (m : MemoryEngine) :
    SessionOutcome × List Call × MemoryEngine :=
  match step with
  | .change c => (.changed, [], c.apply m)
  | step =>
    let (outcome, after) := takeOn MemoryEngine.backend.recorded s step (m, [])
    (outcome, after.2, after.1)

/-- The engine after the steps of a session. -/
def run (s : IndexSettings) (steps : List SessionStep) (m : MemoryEngine) : MemoryEngine :=
  steps.foldl (fun m step => (take s step m).2.2) m

end Session
end ConversationSearch

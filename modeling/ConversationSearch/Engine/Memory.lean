import ConversationSearch.Engine.Call

/-!
# An engine in memory

Indices are kept by name, each with its mappings and its documents by id, both in ascending order.
A search returns the documents of an index in the order of their ids without looking at the query.

The engine can be made to fail. It refuses a call for which a fault is set, be it for calls of that
kind on that index or for all of the kind, and every call while it is unreachable. The mappings that
it reports of an index, and the whole answer to searches, can be replaced.
-/

namespace ConversationSearch

/-- An index that is kept in memory. -/
structure StoredIndex where
  mappings : Json := .null
  documents : List (String × Json) := []
  deriving DecidableEq

namespace StoredIndex

/-- The index with a document stored under its id, in place of the one before. -/
def store (i : StoredIndex) (d : BulkDocument) : StoredIndex :=
  { i with documents := Json.insert d.id d.document i.documents }

/-- The answer to a search for at most so many documents. -/
def found (i : StoredIndex) (size : Nat) : EngineResponse :=
  ⟨{ total := some (.tracked (.ofNat i.documents.length) (some "eq"))
     hits := (i.documents.take size).map fun d => { id := some d.1, source := d.2 } }⟩

end StoredIndex

/-- The state of an engine in memory. -/
structure MemoryEngine where
  indices : List (String × StoredIndex) := []
  faults : List (String × SearchFailure) := []
  /-- Mappings that are reported in place of those of the index. -/
  liveMappings : List (String × Json) := []
  /-- The answer to every search. -/
  rawSearch : Option Json := none
  unreachable : Bool := false

namespace MemoryEngine

/-- The number of documents that a search returns if it does not say. -/
def defaultSize : Nat := 10

/-- The failure of a call to an engine that cannot be reached. -/
def refused : SearchFailure :=
  .indexUnavailable "connection refused"

/-- The index with a name. -/
def index? (m : MemoryEngine) (name : String) : Option StoredIndex :=
  m.indices.lookup name

/-- The state with an index in the place of the one with its name. -/
def setIndex (m : MemoryEngine) (name : String) (i : StoredIndex) : MemoryEngine :=
  { m with indices := Json.insert name i m.indices }

/-- The state without an index. -/
def dropIndex (m : MemoryEngine) (name : String) : MemoryEngine :=
  { m with indices := m.indices.filter fun i => i.1 != name }

/-- The failure with which a call is refused. -/
def fault? (m : MemoryEngine) (c : Call) : Option SearchFailure :=
  (c.index?.bind fun index => m.faults.lookup (c.name ++ ":" ++ index)) <|>
    m.faults.lookup c.name <|> (if m.unreachable then some refused else none)

/-- The most documents that the body of a search asks for. -/
def sizeOf (body : Json) : Nat :=
  match body.get? "size" with
  | some (.number (.int n)) => if 0 ≤ n then n.toNat else defaultSize
  | _ => defaultSize

/-- The answer to a search. -/
def search (m : MemoryEngine) (index : String) (body : Json) :
    Except SearchFailure EngineResponse :=
  match m.rawSearch with
  | some raw => EngineResponse.ofJson raw
  | none =>
    match m.index? index with
    | none => .error (.indexNotFound index)
    | some i => .ok (i.found (sizeOf body))

/-- The answer to a call that is not refused, and the state after it. -/
def perform : (c : Call) → MemoryEngine → c.Answer × MemoryEngine
  | .search index body, m => (m.search index body, m)
  | .bulkIndex index documents, m =>
    (.ok documents.length,
      m.setIndex index (documents.foldl StoredIndex.store ((m.index? index).getD {})))
  | .indexExists index, m => (.ok (m.index? index).isSome, m)
  | .createIndex index body, m =>
    match m.index? index with
    | some _ => (.error (.provisioning index "resource_already_exists_exception"), m)
    | none =>
      (.ok (.object [("acknowledged", .bool true)]),
        m.setIndex index { mappings := (body.get? "mappings").getD .null })
  | .deleteIndex index, m =>
    match m.index? index with
    | none => (.error (.indexNotFound index), m)
    | some _ => (.ok (), m.dropIndex index)
  | .getMapping index, m =>
    match m.liveMappings.lookup index, m.index? index with
    | some live, _ => (.ok live, m)
    | none, some i => (.ok i.mappings, m)
    | none, none => (.error (.indexNotFound index), m)
  | .ping, m => (true, m)
  | .health, m => (.ok (.object [("status", .string "green")]), m)
  | .info, m =>
    (.ok (.object
      [("name", .string "node"), ("version", .object [("number", .string "2.11.0")])]), m)

/-- Answers calls. -/
def backend : Backend MemoryEngine := fun c m =>
  match m.fault? c with
  | some f => (c.refusal f, m)
  | none => perform c m

end MemoryEngine
end ConversationSearch

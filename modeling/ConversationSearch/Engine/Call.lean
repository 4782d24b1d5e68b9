import ConversationSearch.Hits.Response
import ConversationSearch.Search.Failure

/-!
# Calls to the engine

Everything that is asked of the engine is a `Call`, and each call has answers of its own type. A
backend answers calls and may change its state in doing so. What is built on a backend works with
any: one that keeps documents in memory, a client that talks to a server, or one that fails at
will.

`Backend.recorded` writes down the calls in the order in which they are made.
-/

namespace ConversationSearch

open Json (Shape Decoder)

/-- The response to a search that a value holds. -/
def EngineResponse.ofJson (j : Json) : Except SearchFailure EngineResponse :=
  (EngineResponse.decoder.ofJson j).mapError fun failure =>
    .queryFailed ("Unexpected search response: " ++ failure.message)

/-- A document to be written, and the id under which it is stored. -/
structure BulkDocument where
  id : String
  document : Json
  deriving DecidableEq

namespace BulkDocument

/-- The members of a document to be written. -/
def shape : Shape BulkDocument :=
  BulkDocument.mk
    <$> .required "id" Decoder.string
    <*> .required "document" Decoder.json

/-- Reads a document to be written. -/
def decoder : Decoder BulkDocument :=
  shape.decoder "BulkDocument"

/-- The document and its id as a JSON value. -/
def toJson (d : BulkDocument) : Json :=
  .object [("document", d.document), ("id", .string d.id)]

end BulkDocument

/-- Something asked of the engine. -/
inductive Call
  /-- Run a search on an index. -/
  | search (index : String) (body : Json)
  /-- Write documents to an index, so that searches find them from then on. -/
  | bulkIndex (index : String) (documents : List BulkDocument)
  | indexExists (index : String)
  | createIndex (index : String) (body : Json)
  | deleteIndex (index : String)
  /-- The mappings of an index as they are. -/
  | getMapping (index : String)
  /-- Whether the engine answers at all. -/
  | ping
  | health
  | info
  deriving DecidableEq

namespace Call

/-- What a call is answered with. -/
abbrev Answer : Call → Type
  | .search _ _ => Except SearchFailure EngineResponse
  | .bulkIndex _ _ => Except SearchFailure Nat
  | .indexExists _ => Except SearchFailure Bool
  | .createIndex _ _ => Except SearchFailure Json
  | .deleteIndex _ => Except SearchFailure Unit
  | .getMapping _ => Except SearchFailure Json
  | .ping => Bool
  | .health => Except SearchFailure Json
  | .info => Except SearchFailure Json

/-- The name of a call. -/
def name : Call → String
  | .search _ _ => "search"
  | .bulkIndex _ _ => "bulk_index"
  | .indexExists _ => "index_exists"
  | .createIndex _ _ => "create_index"
  | .deleteIndex _ => "delete_index"
  | .getMapping _ => "get_mapping"
  | .ping => "ping"
  | .health => "health"
  | .info => "info"

/-- The index that a call is about. -/
def index? : Call → Option String
  | .search index _ | .bulkIndex index _ | .indexExists index | .createIndex index _
  | .deleteIndex index | .getMapping index => some index
  | .ping | .health | .info => none

/-- Refuses a call with a failure; a ping is then not answered. -/
def refusal (f : SearchFailure) : (c : Call) → c.Answer
  | .search _ _ => .error f
  | .bulkIndex _ _ => .error f
  | .indexExists _ => .error f
  | .createIndex _ _ => .error f
  | .deleteIndex _ => .error f
  | .getMapping _ => .error f
  | .ping => false
  | .health => .error f
  | .info => .error f

/-- The call as a JSON value. -/
def toJson (c : Call) : Json :=
  .ofMembers
    ([("call", .string c.name)] ++ Json.member? "index" .string c.index? ++
      match c with
      | .search _ body => [("body", body)]
      | .bulkIndex _ documents => [("documents", .array (documents.map BulkDocument.toJson))]
      | .createIndex _ body => [("body", body)]
      | _ => [])

end Call

/-- Answers calls, from a state and with a new one. -/
abbrev Backend (σ : Type) := (c : Call) → σ → c.Answer × σ

namespace Backend

/-- Makes a call. -/
def ask (b : Backend σ) (c : Call) : StateM σ c.Answer :=
  b c

/-- The backend that also writes down the calls. -/
def recorded (b : Backend σ) : Backend (σ × List Call) := fun c state =>
  let (answer, inner) := b c state.1
  (answer, inner, state.2 ++ [c])

end Backend
end ConversationSearch

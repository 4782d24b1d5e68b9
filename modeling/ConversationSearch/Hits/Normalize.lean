import ConversationSearch.Hits.Record
import ConversationSearch.Hits.Response
import ConversationSearch.Schema.Field
import ConversationSearch.Search.Failure

/-!
# From hits to records

The hits of a response become records one by one, in their order. None is dropped, moved or merged
with another, and the engine's total stands as it is. A single hit whose document cannot be read
makes the whole page unreadable; the first such hit is named.
-/

namespace ConversationSearch

namespace EngineHit

/-- The name of a hit in messages: its id, or its position on the page. -/
def label (h : EngineHit) (position : Nat) : String :=
  h.id.getD ("#" ++ String.ofList (Text.digits position))

/-- The record of a hit, its document being of the given kind. -/
def toRecord (target : Entity) (h : EngineHit) : Except Json.Failure SearchRecord :=
  match target with
  | .conversation => .conversation <$> Conversation.decoder.ofJson h.source
  | .message => do
    let message ← Message.decoder.ofJson h.source
    return .message ⟨message, h.fragment? "text"⟩

/-- The record of the hit at a position. -/
def toRecordAt (target : Entity) (position : Nat) (h : EngineHit) :
    Except SearchFailure SearchRecord :=
  (h.toRecord target).mapError fun failure =>
    .malformedHit (h.label position) failure.message

end EngineHit

/-- The records of hits, the first of which is at the given position. -/
def recordsFrom (target : Entity) (position : Nat) :
    List EngineHit → Except SearchFailure (List SearchRecord)
  | [] => .ok []
  | h :: rest => do
    let record ← h.toRecordAt target position
    let records ← recordsFrom target (position + 1) rest
    return record :: records

/-- The response for a page of hits. -/
def normalize (target : Entity) (hits : List EngineHit) (total : UInt64) :
    Except SearchFailure SearchResponse := do
  let records ← recordsFrom target 0 hits
  return ⟨records, total⟩

/-- The response for what the engine answered. -/
def EngineResponse.normalize (target : Entity) (r : EngineResponse) :
    Except SearchFailure SearchResponse :=
  ConversationSearch.normalize target r.hits.hits r.hits.totalCount

end ConversationSearch

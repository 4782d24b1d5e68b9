import ConversationSearch.Conversation
import ConversationSearch.Schema.Field

/-!
# Search records

A search returns conversations, and messages together with the fragment in which their text was
matched. Such a message is written as one object: the members of the message with the fragment
among them. A record does not say which of the two it is; it is read as a conversation if it can be,
and else as a message.
-/

namespace ConversationSearch

open Json (Shape Decoder Failure)

/-- A message that a search found. -/
structure MessageHit where
  message : Message
  /-- The part of the text that was matched, with the marks. -/
  highlighted : Option String
  deriving DecidableEq

namespace MessageHit

/-- The name of the member that holds the fragment. -/
def highlightedKey : String :=
  "highlighted"

/-- What was gathered of an object: the fragment, once its member was met, and the other members. -/
structure Gathered where
  highlighted : Option (Option String)
  others : List (Json.Reading × Json.Reading)

/-- Visits the members of an object. The fragment is decoded on the way; of the others it is only
made sure that they can be read. -/
def gather (source : Json.Source) :
    List (Json.Reading × Json.Reading) → Gathered → Except Failure Gathered
  | [], seen => .ok seen
  | (key, value) :: rest, seen => do
    let name ← Decoder.memberKey key value
    if name = highlightedKey then
      if seen.highlighted.isSome then .error (.of (.duplicateField name))
      else
        let fragment ←
          (Decoder.option Decoder.string source value).mapError (·.under (.member name))
        gather source rest { seen with highlighted := some fragment }
    else
      let _ ← (Decoder.json source value).mapError (·.under (.member name))
      gather source rest { seen with others := seen.others ++ [(key, value)] }

/-- Reads a message with its fragment from an object. -/
def decoder : Decoder MessageHit
  | source, .object members close => do
    let gathered ← gather source members ⟨none, []⟩
    Decoder.closing close
    let message ← Message.decoder .buffer (.object gathered.others none)
    return ⟨message, gathered.highlighted.join⟩
  | _, r => .error (Decoder.mismatch "struct MessageHit" r)

/-- The members of the message and its fragment. -/
def toJson (h : MessageHit) : Json :=
  match h.highlighted with
  | none => h.message.toJson
  | some fragment =>
    .object (Json.insert highlightedKey (.string fragment) h.message.members)

end MessageHit

/-- A document that a search found. -/
inductive SearchRecord
  | conversation (c : Conversation)
  | message (h : MessageHit)
  deriving DecidableEq

namespace SearchRecord

/-- The id of the document. -/
def id : SearchRecord → String
  | .conversation c => c.id
  | .message h => h.message.id

/-- The kind of the document. -/
def entity : SearchRecord → Entity
  | .conversation _ => .conversation
  | .message _ => .message

/-- Reads a record. -/
def decoder : Decoder SearchRecord :=
  Decoder.untagged "SearchRecord"
    [fun source r => .conversation <$> Conversation.decoder source r,
     fun source r => .message <$> MessageHit.decoder source r]

/-- The record as a JSON value. -/
def toJson : SearchRecord → Json
  | .conversation c => c.toJson
  | .message h => h.toJson

end SearchRecord

/-- What a search returns: a page of records, and the number of all that match. -/
structure SearchResponse where
  hits : List SearchRecord
  total : UInt64
  deriving DecidableEq

namespace SearchResponse

/-- The members of a response. -/
def shape : Shape SearchResponse :=
  SearchResponse.mk
    <$> .required "hits" (Decoder.list SearchRecord.decoder)
    <*> .required "total" Decoder.uint64

/-- Reads a response. -/
def decoder : Decoder SearchResponse :=
  shape.decoder "SearchResponse"

/-- The response as a JSON value. -/
def toJson (r : SearchResponse) : Json :=
  .object [("hits", .array (r.hits.map SearchRecord.toJson)), ("total", .nat r.total.toNat)]

end SearchResponse
end ConversationSearch

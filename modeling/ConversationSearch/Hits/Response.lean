import ConversationSearch.Json.Decoder

/-!
# Responses of the engine

A response holds a page of hits and, where the engine counted them, the number of all documents that
match. A hit is kept as the engine gave it: its document is any JSON value, and the marked fragments
are listed by field. The members of a hit may all be missing.
-/

namespace ConversationSearch

open Json (Shape Decoder)

/-- The number of matching documents: bare, or with a remark on how it relates to the true number.
-/
inductive EngineTotal
  | count (value : UInt64)
  | tracked (value : UInt64) (relation : Option String)
  deriving DecidableEq, Repr

namespace EngineTotal

/-- The number itself. -/
def value : EngineTotal → UInt64
  | .count n => n
  | .tracked n _ => n

/-- The members of a number with a remark. -/
def trackedShape : Shape EngineTotal :=
  .tracked
    <$> .required "value" Decoder.uint64
    <*> .defaulted "relation" (Decoder.option Decoder.string) none

/-- Reads either form of the number. -/
def decoder : Decoder EngineTotal :=
  Decoder.untagged "RawTotal"
    [fun source r => .count <$> Decoder.uint64 source r, trackedShape.objectDecoder "RawTotal"]

/-- The number in the form in which it was given. -/
def toJson : EngineTotal → Json
  | .count n => .nat n.toNat
  | .tracked n relation =>
    .object [("relation", .ofText? relation), ("value", .nat n.toNat)]

end EngineTotal

/-- A document that the engine found. -/
structure EngineHit where
  id : Option String := none
  score : Option Json.Double := none
  source : Json := .null
  /-- The marked fragments by field, the fields in ascending order. -/
  highlight : Option (List (String × List String)) := none
  deriving DecidableEq

namespace EngineHit

/-- The first marked fragment of a field. -/
def fragment? (h : EngineHit) (field : String) : Option String := do
  let fields ← h.highlight
  let fragments ← fields.lookup field
  fragments.head?

/-- The members of a hit. -/
def shape : Shape EngineHit :=
  EngineHit.mk
    <$> .defaulted "_id" (Decoder.option Decoder.string) none
    <*> .defaulted "_score" (Decoder.option Decoder.real) none
    <*> .defaulted "_source" Decoder.json .null
    <*> .defaulted "highlight"
      (Decoder.option (Decoder.dictionary (Decoder.list Decoder.string))) none

/-- Reads a hit. -/
def decoder : Decoder EngineHit :=
  shape.decoder "RawHit"

/-- The hit as a JSON value. -/
def toJson (h : EngineHit) : Json :=
  .object
    [("_id", .ofText? h.id),
     ("_score", .ofOption (fun score => .number (.real score)) h.score),
     ("_source", h.source),
     ("highlight", .ofOption
       (fun fields => .object (fields.map fun f => (f.1, .array (f.2.map .string)))) h.highlight)]

end EngineHit

/-- A page of hits. -/
structure EngineHits where
  total : Option EngineTotal := none
  hits : List EngineHit := []
  deriving DecidableEq

namespace EngineHits

/-- The number of matching documents; where the engine gave none, that of the hits on the page. -/
def totalCount (h : EngineHits) : UInt64 :=
  match h.total with
  | some total => total.value
  | none => .ofNat h.hits.length

/-- The members of a page. -/
def shape : Shape EngineHits :=
  EngineHits.mk
    <$> .defaulted "total" (Decoder.option EngineTotal.decoder) none
    <*> .defaulted "hits" (Decoder.list EngineHit.decoder) []

/-- Reads a page of hits. -/
def decoder : Decoder EngineHits :=
  shape.decoder "RawHits"

/-- The page as a JSON value. -/
def toJson (h : EngineHits) : Json :=
  .object
    [("hits", .array (h.hits.map EngineHit.toJson)),
     ("total", .ofOption EngineTotal.toJson h.total)]

end EngineHits

/-- What the engine answers to a search. -/
structure EngineResponse where
  hits : EngineHits
  deriving DecidableEq

namespace EngineResponse

/-- The members of a response. -/
def shape : Shape EngineResponse :=
  EngineResponse.mk <$> .required "hits" EngineHits.decoder

/-- Reads a response. -/
def decoder : Decoder EngineResponse :=
  shape.decoder "RawSearchResponse"

/-- The response as a JSON value. -/
def toJson (r : EngineResponse) : Json :=
  .object [("hits", r.hits.toJson)]

end EngineResponse
end ConversationSearch

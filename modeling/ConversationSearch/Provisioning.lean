import ConversationSearch.Engine.Call
import ConversationSearch.Schema.Mapping
import ConversationSearch.Settings.Index

/-!
# Preparing the indices

Provisioning deletes the index of each kind of document and creates it anew from its declaration,
which destroys the documents in it. The indices are handled one after the other, each on its own:
where one fails, the report says how far it came, and the next is tried all the same. Nothing is
tried when the engine is not in good health to begin with.

Inspecting compares the mappings that the engine reports with the declarations.
-/

namespace ConversationSearch

open Json (Shape Decoder)

/-- How far the provisioning of an index came. -/
structure IndexOutcome where
  entity : Entity
  index : String
  /-- An index of that name was there and was deleted. -/
  replaced : Bool := false
  created : Bool := false
  /-- What came of comparing the mappings of the new index with the declaration. -/
  verification : Option Schema.Verification := none
  error : Option String := none
  deriving DecidableEq

namespace IndexOutcome

/-- The outcome when a call has failed. -/
def failed (o : IndexOutcome) (f : SearchFailure) : IndexOutcome :=
  { o with error := some f.message }

/-- Whether the index is there and is what it should be. -/
def succeeded (o : IndexOutcome) : Bool :=
  o.created && o.error.isNone && o.verification.any (·.isValid)

/-- The members of an outcome. -/
def shape : Shape IndexOutcome :=
  IndexOutcome.mk
    <$> .required "entity" Entity.decoder
    <*> .required "index" Decoder.string
    <*> .required "replaced" Decoder.bool
    <*> .required "created" Decoder.bool
    <*> .optional "verification" Schema.Verification.decoder
    <*> .optional "error" Decoder.string

/-- Reads an outcome. -/
def decoder : Decoder IndexOutcome :=
  shape.decoder "IndexOutcome"

/-- The outcome as a JSON value. -/
def toJson (o : IndexOutcome) : Json :=
  .object
    ([("created", .bool o.created), ("entity", o.entity.toJson)] ++
     Json.member? "error" .string o.error ++
     [("index", .string o.index), ("replaced", .bool o.replaced)] ++
     Json.member? "verification" Schema.Verification.toJson o.verification)

end IndexOutcome

/-- What came of provisioning. -/
structure ProvisionReport where
  success : Bool
  indices : List IndexOutcome
  deriving DecidableEq

namespace ProvisionReport

/-- The report of outcomes; all of them have to have succeeded. -/
def ofOutcomes (outcomes : List IndexOutcome) : ProvisionReport :=
  ⟨outcomes.all IndexOutcome.succeeded, outcomes⟩

/-- The first outcome for a kind of document. -/
def outcome? (r : ProvisionReport) (e : Entity) : Option IndexOutcome :=
  r.indices.find? fun o => o.entity == e

/-- The members of a report. -/
def shape : Shape ProvisionReport :=
  ProvisionReport.mk
    <$> .required "success" Decoder.bool
    <*> .required "indices" (Decoder.list IndexOutcome.decoder)

/-- Reads a report. -/
def decoder : Decoder ProvisionReport :=
  shape.decoder "ProvisionReport"

/-- The report as a JSON value. -/
def toJson (r : ProvisionReport) : Json :=
  .object
    [("indices", .array (r.indices.map IndexOutcome.toJson)), ("success", .bool r.success)]

end ProvisionReport

/-- The mappings of an index, and what came of comparing them with the declaration. -/
structure IndexMapping where
  entity : Entity
  index : String
  mappings : Json
  verification : Schema.Verification
  deriving DecidableEq

namespace IndexMapping

/-- The members of an inspected mapping. -/
def shape : Shape IndexMapping :=
  IndexMapping.mk
    <$> .required "entity" Entity.decoder
    <*> .required "index" Decoder.string
    <*> .required "mappings" Decoder.json
    <*> .required "verification" Schema.Verification.decoder

/-- Reads an inspected mapping. -/
def decoder : Decoder IndexMapping :=
  shape.decoder "IndexMapping"

/-- The inspected mapping as a JSON value. -/
def toJson (m : IndexMapping) : Json :=
  .object
    [("entity", m.entity.toJson),
     ("index", .string m.index),
     ("mappings", m.mappings),
     ("verification", m.verification.toJson)]

end IndexMapping

namespace Provisioning

/-- Compares the mappings of a new index with the declaration. -/
def verifyIndex (b : Backend σ) (o : IndexOutcome) : StateM σ IndexOutcome := do
  match ← b.ask (.getMapping o.index) with
  | .error f => return o.failed f
  | .ok live => return { o with verification := some (o.entity.verify live) }

/-- Creates an index and verifies it. -/
def createIndex (b : Backend σ) (o : IndexOutcome) : StateM σ IndexOutcome := do
  match ← b.ask (.createIndex o.index (Schema.indexBody o.entity.fields)) with
  | .error f => return o.failed f
  | .ok _ => verifyIndex b { o with created := true }

/-- Deletes an index and creates it anew. -/
def replaceIndex (b : Backend σ) (o : IndexOutcome) : StateM σ IndexOutcome := do
  match ← b.ask (.deleteIndex o.index) with
  | .error f => return o.failed f
  | .ok () => createIndex b { o with replaced := true }

/-- Prepares the index of one kind of document. -/
def provisionIndex (b : Backend σ) (s : IndexSettings) (e : Entity) : StateM σ IndexOutcome := do
  let o : IndexOutcome := { entity := e, index := s.indexName e }
  match ← b.ask (.indexExists o.index) with
  | .error f => return o.failed f
  | .ok true => replaceIndex b o
  | .ok false => createIndex b o

/-- The failure when the engine is not in good health. -/
def unavailable : SearchFailure → SearchFailure
  | .indexUnavailable reason => .indexUnavailable reason
  | f => .indexUnavailable f.message

/-- Prepares the indices of all kinds of documents. -/
def provision (b : Backend σ) (s : IndexSettings) :
    StateM σ (Except SearchFailure ProvisionReport) := do
  match ← b.ask .health with
  | .error f => return .error (unavailable f)
  | .ok _ =>
    let outcomes ← Entity.all.mapM (provisionIndex b s)
    return .ok (.ofOutcomes outcomes)

/-- The names among those of the given kinds' indices that do not exist. -/
def missingIndices (b : Backend σ) (s : IndexSettings) :
    List Entity → StateM σ (Except SearchFailure (List String))
  | [] => return .ok []
  | e :: rest => do
    match ← b.ask (.indexExists (s.indexName e)) with
    | .error f => return .error f
    | .ok present =>
      return (← missingIndices b s rest).map fun names =>
        if present then names else s.indexName e :: names

/-- The mappings of the given kinds' indices, compared with the declarations. -/
def inspectMappings (b : Backend σ) (s : IndexSettings) :
    List Entity → StateM σ (Except SearchFailure (List IndexMapping))
  | [] => return .ok []
  | e :: rest => do
    match ← b.ask (.getMapping (s.indexName e)) with
    | .error f => return .error f
    | .ok live =>
      return (← inspectMappings b s rest).map fun mappings =>
        ⟨e, s.indexName e, live, e.verify live⟩ :: mappings

/-- Inspects the indices of all kinds of documents; those that do not exist are all named. -/
def inspect (b : Backend σ) (s : IndexSettings) :
    StateM σ (Except SearchFailure (List IndexMapping)) := do
  match ← missingIndices b s Entity.all with
  | .error f => return .error f
  | .ok [] => inspectMappings b s Entity.all
  | .ok names =>
    return .error (.indexNotFound (", ".intercalate names ++ " (run setup first)"))

end Provisioning
end ConversationSearch

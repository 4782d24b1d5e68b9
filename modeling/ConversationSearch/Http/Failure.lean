import ConversationSearch.Json.Basic
import ConversationSearch.Search.Failure

/-!
# Failures of the interface

What goes wrong behind the interface is told to its users in fewer kinds than there are inside. Each
kind has a code that does not change and a status. `ApiFailure.ofSearch` is the only place where
failures of searches become failures of the interface.
-/

namespace ConversationSearch

/-- A kind of failure that users of the interface can tell from others. -/
inductive FailureKind
  | validation
  | notFound
  | indexUnavailable
  | queryFailed
  | provisioning
  | indexing
  | configuration
  | serialization
  | internal
  deriving DecidableEq, Repr

namespace FailureKind

/-- The status of the response. -/
def status : FailureKind → Nat
  | .validation => 400
  | .notFound => 404
  | .indexUnavailable => 503
  | .queryFailed | .provisioning | .indexing | .configuration | .serialization | .internal => 500

/-- The code of the kind. -/
def code : FailureKind → String
  | .validation => "VALIDATION_ERROR"
  | .notFound => "NOT_FOUND"
  | .indexUnavailable => "INDEX_UNAVAILABLE"
  | .queryFailed => "QUERY_FAILED"
  | .provisioning => "PROVISIONING_ERROR"
  | .indexing => "INDEXING_ERROR"
  | .configuration => "CONFIGURATION_ERROR"
  | .serialization => "SERIALIZATION_ERROR"
  | .internal => "INTERNAL_ERROR"

/-- The words in front of the reason. -/
def heading : FailureKind → String
  | .validation => "Invalid request: "
  | .notFound => "Not found: "
  | .indexUnavailable => "Search cluster unavailable: "
  | .queryFailed => "Query failed: "
  | .provisioning => "Provisioning failed: "
  | .indexing => "Indexing failed: "
  | .configuration => "Misconfigured: "
  | .serialization => "Could not encode or decode JSON: "
  | .internal => "Internal error: "

end FailureKind

/-- A failure as users of the interface see it. -/
structure ApiFailure where
  kind : FailureKind
  reason : String
  deriving DecidableEq, Repr

namespace ApiFailure

/-- The wording of a failure. -/
def message (f : ApiFailure) : String :=
  f.kind.heading ++ f.reason

/-- The failure as a JSON value. -/
def toJson (f : ApiFailure) : Json :=
  .object
    [("error", .object
      [("code", .string f.kind.code),
       ("message", .string f.message),
       ("status", .nat f.kind.status)])]

/-- The failure of a search operation as users see it. -/
def ofSearch (f : SearchFailure) : ApiFailure :=
  match f with
  | .indexUnavailable reason => ⟨.indexUnavailable, reason⟩
  | .indexNotFound index => ⟨.notFound, "index " ++ index⟩
  | .invalidDocument reason => ⟨.validation, reason⟩
  | .invalidConfiguration reason => ⟨.configuration, reason⟩
  | .provisioning _ _ => ⟨.provisioning, f.message⟩
  | .indexing reason => ⟨.indexing, reason⟩
  | .serialization reason => ⟨.serialization, reason⟩
  | .queryFailed _ | .malformedHit _ _ | .http _ _ | .schema _ => ⟨.queryFailed, f.message⟩
  | .queryConstruction _ => ⟨.internal, f.message⟩

end ApiFailure
end ConversationSearch

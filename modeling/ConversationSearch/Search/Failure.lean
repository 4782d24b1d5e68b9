/-!
# Failures of search operations

The ways in which compiling, running or preparing searches fails, each with its wording. A transient
failure of a request that changes nothing can be tried again.
-/

namespace ConversationSearch

/-- Why a search operation failed. -/
inductive SearchFailure
  /-- The cluster could not be reached. -/
  | indexUnavailable (reason : String)
  /-- No query could be made of a request. -/
  | queryConstruction (reason : String)
  /-- The engine refused a search or failed to run it. -/
  | queryFailed (reason : String)
  /-- The document of a hit could not be read. -/
  | malformedHit (id reason : String)
  /-- An index does not exist. -/
  | indexNotFound (index : String)
  /-- An index could not be created or deleted. -/
  | provisioning (index reason : String)
  /-- A document breaks a rule of its kind. -/
  | invalidDocument (reason : String)
  /-- Documents could not be written, or not all of them. -/
  | indexing (reason : String)
  /-- A mapping is not what it should be. -/
  | schema (reason : String)
  /-- The configuration cannot be used. -/
  | invalidConfiguration (reason : String)
  /-- The engine answered with an unexpected status. -/
  | http (status : UInt16) (body : String)
  /-- A body could not be written or read as JSON. -/
  | serialization (reason : String)
  deriving DecidableEq, Repr

namespace SearchFailure

/-- The wording of a failure. -/
def message : SearchFailure → String
  | .indexUnavailable reason => "Index unreachable: " ++ reason
  | .queryConstruction reason => "Query construction failed: " ++ reason
  | .queryFailed reason => "Search execution failed: " ++ reason
  | .malformedHit id reason => "Malformed hit " ++ id ++ ": " ++ reason
  | .indexNotFound index => "Index not found: " ++ index
  | .provisioning index reason => "Provisioning of index '" ++ index ++ "' failed: " ++ reason
  | .invalidDocument reason => "Invalid document: " ++ reason
  | .indexing reason => "Document indexing failed: " ++ reason
  | .schema reason => "Schema error: " ++ reason
  | .invalidConfiguration reason => "Invalid configuration: " ++ reason
  | .http status body => "HTTP " ++ toString status.toNat ++ " from index: " ++ body
  | .serialization reason => "Serialization error: " ++ reason

/-- The statuses of an engine that is there but cannot answer at the moment. -/
def isTransientStatus (status : UInt16) : Bool :=
  502 ≤ status && status ≤ 504

/-- Whether a request that changes nothing may be tried again after this failure. -/
def isTransient : SearchFailure → Bool
  | .indexUnavailable _ => true
  | .http status _ => isTransientStatus status
  | _ => false

end SearchFailure
end ConversationSearch

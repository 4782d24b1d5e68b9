import ConversationSearch.Engine.Call
import ConversationSearch.Json.Printer

/-!
# Writing in bulk

Documents are written by one request whose body has two lines for each: one that says where the
document goes, and the document. The engine answers with an item for each document, and an item that
carries an error is a document that was not written.
-/

namespace ConversationSearch.Bulk

/-- A value on a line of its own. -/
def line (j : Json) : List Char :=
  j.compactChars ++ ['\n']

/-- Where a document goes. -/
def action (index : String) (d : BulkDocument) : Json :=
  .object [("index", .object [("_id", .string d.id), ("_index", .string index)])]

/-- The body of the request. -/
def body (index : String) (documents : List BulkDocument) : String :=
  String.ofList (documents.flatMap fun d => line (action index d) ++ line d.document)

/-- Whether a response says that a document was not written. -/
def reportsErrors (response : Json) : Bool :=
  ((response.get? "errors").bind Json.bool?).getD false

/-- What an item says of a document that was not written. -/
def itemFailure? (item : Json) : Option String := do
  let result ← item.get? "index"
  let error ← result.get? "error"
  let id := ((result.get? "_id").bind Json.text?).getD "?"
  let reason := ((error.get? "reason").bind Json.text?).getD "unknown reason"
  return "document " ++ id ++ ": " ++ reason

/-- What a response says of the first document that was not written. -/
def firstFailure? (response : Json) : Option String := do
  let items ← (response.get? "items").bind Json.items?
  items.findSome? itemFailure?

/-- What came of writing some documents: how many there were, if all were written. -/
def outcome (index : String) (count : Nat) (response : Json) : Except SearchFailure Nat :=
  if reportsErrors response then
    let reason := (firstFailure? response).getD "bulk request reported errors"
    .error (.indexing ("index '" ++ index ++ "': " ++ reason))
  else .ok count

end ConversationSearch.Bulk

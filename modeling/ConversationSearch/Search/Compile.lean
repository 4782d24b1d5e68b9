import ConversationSearch.Search.Clause
import ConversationSearch.Search.Failure

/-!
# Compiling requests

A request becomes a query with directives for order, highlighting and size, addressed to the index
of one kind of document. Conversations are browsed: their text is searched, filters do not apply,
and the result is a short list. Messages are filtered: the text, if there is one, counts for
relevance, and each condition of the request adds a clause that only includes or excludes.

Targets of clauses are looked up in the declaration. A field that does not allow the clause is
reported, although no field that is used here is of that kind.
-/

namespace ConversationSearch

/-- The most conversations that a search returns. -/
def conversationLimit : Nat := 20

/-- An order of sorting. -/
inductive SortOrder
  | ascending
  | descending
  deriving DecidableEq, Repr

/-- The name of an order. -/
def SortOrder.name : SortOrder → String
  | .ascending => "asc"
  | .descending => "desc"

/-- A field to sort by. -/
structure SortField where
  field : String
  order : SortOrder
  deriving DecidableEq, Repr

/-- The field to sort by as a JSON value. -/
def SortField.toJson (s : SortField) : Json :=
  .object [(s.field, .object [("order", .string s.order.name)])]

/-- The newest first, and of one date by id. -/
def defaultSort : List SortField :=
  [⟨"date", .descending⟩, ⟨"id", .ascending⟩]

/-- The fields in which matches are marked, and the marks. -/
structure Highlight where
  fields : List String
  preTag : String
  postTag : String
  deriving DecidableEq, Repr

namespace Highlight

/-- Marks in the texts of messages and conversations. -/
def standard : Highlight :=
  ⟨["text", "lastMessage"], "<strong>", "</strong>"⟩

/-- The directive as a JSON value. -/
def toJson (h : Highlight) : Json :=
  .object
    [("fields", .ofMembers (h.fields.map fun f => (f, Json.empty))),
     ("post_tags", .array [.string h.postTag]),
     ("pre_tags", .array [.string h.preTag])]

end Highlight

/-- A request made ready for the engine. -/
structure CompiledSearch where
  target : Entity
  query : Clause
  sort : List SortField
  highlight : Option Highlight
  /-- The most hits to return; without it the engine decides. -/
  size : Option Nat

/-- The body of the search request. -/
def CompiledSearch.body (c : CompiledSearch) : Json :=
  .object
    (Json.member? "highlight" Highlight.toJson c.highlight ++
     [("query", c.query.toJson)] ++
     Json.member? "size" Json.nat c.size ++
     [("sort", .array (c.sort.map SortField.toJson))])

/-- Why no query can be made of a request. -/
inductive CompileFault
  | notFullText (field : String) (entity : Entity)
  | notExact (field : String) (entity : Entity)
  | notDate (field : String)
  deriving DecidableEq, Repr

/-- The wording of the fault. -/
def CompileFault.message : CompileFault → String
  | .notFullText field entity =>
    "field '" ++ field ++ "' of " ++ entity.name ++ " is not full-text indexed"
  | .notExact field entity =>
    "field '" ++ field ++ "' of " ++ entity.name ++ " has no exact-match representation"
  | .notDate field => "field '" ++ field ++ "' is not declared as a date"

namespace Compile

/-- The fields in which the text of a conversation is looked for. -/
def conversationMatchFields : List BoostedField :=
  [⟨"username", some 2⟩, ⟨"handle", none⟩, ⟨"lastMessage", none⟩]

/-- The fields in which the text of a message is looked for. -/
def messageMatchFields : List BoostedField :=
  [⟨"text", some 2⟩, ⟨"username", none⟩, ⟨"handle", none⟩]

/-- A clause that looks for a text in analysed fields. -/
def fuzzyMatch (entity : Entity) (text : String) (fields : List BoostedField) :
    Except CompileFault Clause :=
  match fields.find? fun f => !Schema.isFullText entity.fields f.field with
  | some bad => .error (.notFullText bad.field entity)
  | none => .ok (.multiMatch text fields)

/-- A clause that matches a field exactly. -/
def term (entity : Entity) (field : String) (value : Json) : Except CompileFault Clause :=
  match Schema.exactField entity.fields field with
  | some target => .ok (.term target value)
  | none => .error (.notExact field entity)

/-- The clause for a condition, if the condition is there. -/
def term? (entity : Entity) (field : String) : Option Json → Except CompileFault (List Clause)
  | none => .ok []
  | some value => (term entity field value).map ([·])

/-- The clause for bounds on the date, if there are any. -/
def dateRange? (entity : Entity) (bounds : DateBounds) : Except CompileFault (List Clause) :=
  if bounds.isUnbounded then .ok []
  else if Schema.isDate entity.fields "date" then .ok [.range "date" bounds]
  else .error (.notDate "date")

/-- The query for a search of conversations. -/
def conversationQuery (r : Request) : Except CompileFault Clause :=
  match r.queryText with
  | some text => fuzzyMatch .conversation text conversationMatchFields
  | none => .ok .matchAll

/-- The query for a search of messages. -/
def messageQuery (r : Request) : Except CompileFault Clause := do
  let f := r.filters
  let must ← match r.queryText with
    | some text => (fuzzyMatch .message text messageMatchFields).map ([·])
    | none => .ok []
  let conversation ← term? .message "conversationId" (r.conversationId.map .string)
  let author ← term? .message "handle" (f.author.map .string)
  let mention ← term? .message "mentions" (f.mention.map .string)
  let attachment ← term? .message "attachmentType" (f.attachment.map (.string ·.name))
  let dates ← dateRange? .message f.dateBounds
  let pinned ← term? .message "pinned" (if f.pinned = some true then some (.bool true) else none)
  return .bool must (conversation ++ author ++ mention ++ attachment ++ dates ++ pinned)

/-- The search for a request; highlighting, where it is asked for, changes neither what is found nor
its order. -/
def search (highlighting : Bool) (r : Request) : Except CompileFault CompiledSearch :=
  match r.target with
  | .conversation => do
    let query ← conversationQuery r
    return ⟨.conversation, query, defaultSort, none, some conversationLimit⟩
  | .message => do
    let query ← messageQuery r
    return ⟨.message, query, defaultSort, if highlighting then some .standard else none, none⟩

end Compile

/-- The search for a request, a fault being a failure to construct the query. -/
def compile (highlighting : Bool) (r : Request) : Except SearchFailure CompiledSearch :=
  (Compile.search highlighting r).mapError fun fault => .queryConstruction fault.message

end ConversationSearch

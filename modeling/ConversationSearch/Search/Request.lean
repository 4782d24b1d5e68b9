import ConversationSearch.Schema.Field
import ConversationSearch.Message

/-!
# Search requests

A request names the kind of document to search, a text, and for messages the filters and the
conversation to which the search is restricted. In a request that is read, a blank text of a filter
counts as absent and the blanks around one do not count; a request that is built keeps its texts as
they are.
-/

namespace ConversationSearch

open Json (Shape Decoder)

/-- Conditions on messages; what is absent is no condition. -/
structure Filters where
  /-- The handle of the author. -/
  author : Option String := none
  /-- A handle that the message mentions. -/
  mention : Option String := none
  /-- The kind of attachment that the message carries. -/
  attachment : Option Attachment := none
  /-- The message is earlier. -/
  before : Option Time.Instant := none
  /-- The message is later. -/
  after : Option Time.Instant := none
  /-- The message is of this instant; this is no day or other stretch of time. -/
  during : Option Time.Instant := none
  /-- Whether the message has to be pinned; `some false` is no condition. -/
  pinned : Option Bool := none
  deriving DecidableEq

/-- Reads a text that may be absent or blank, and without the blanks around it. -/
def Json.Decoder.blankable (f : String → Except String α) : Decoder (Option α) :=
  fun source r => do
    match (← Decoder.option Decoder.string source r).bind Text.nonBlank with
    | none => return none
    | some s => ((f s).map some).mapError fun reason => .of (.refused reason)

namespace Filters

/-- Reads the name of a kind of attachment, in any letter case. -/
def readAttachment (s : String) : Except String Attachment :=
  match Attachment.ofName? s with
  | some a => .ok a
  | none => .error unknownName

/-- Reads a timestamp. -/
def readInstant (s : String) : Except String Time.Instant :=
  (Time.parse s).mapError (·.message)

/-- The members of filters. -/
def shape : Shape Filters :=
  Filters.mk
    <$> .defaulted "from" (.blankable .ok) none
    <*> .defaulted "mentions" (.blankable .ok) none
    <*> .defaulted "has" (.blankable readAttachment) none
    <*> .defaulted "before" (.blankable readInstant) none
    <*> .defaulted "after" (.blankable readInstant) none
    <*> .defaulted "during" (.blankable readInstant) none
    <*> .defaulted "pinned" (Decoder.option Decoder.bool) none

/-- Reads filters. -/
def decoder : Decoder Filters :=
  shape.decoder "SearchFilters"

/-- An instant with its whole fraction. -/
def instantJson (t : Time.Instant) : Json :=
  .string t.fullText

/-- The members that are there, in the order in which the fields are declared. -/
def declaredMembers (f : Filters) : List (String × Json) :=
  Json.member? "from" .string f.author ++
  Json.member? "mentions" .string f.mention ++
  Json.member? "has" (.string ·.name) f.attachment ++
  Json.member? "before" instantJson f.before ++
  Json.member? "after" instantJson f.after ++
  Json.member? "during" instantJson f.during ++
  Json.member? "pinned" .bool f.pinned

/-- The filters as a JSON value. -/
def toJson (f : Filters) : Json :=
  .object
    (Json.member? "after" instantJson f.after ++
     Json.member? "before" instantJson f.before ++
     Json.member? "during" instantJson f.during ++
     Json.member? "from" .string f.author ++
     Json.member? "has" (.string ·.name) f.attachment ++
     Json.member? "mentions" .string f.mention ++
     Json.member? "pinned" .bool f.pinned)

end Filters

/-- A search as a user asks for it. -/
structure Request where
  /-- The text to look for; a blank one asks for no text. -/
  query : Option String := none
  /-- The kind of document to search. -/
  target : Entity := .message
  filters : Filters := {}
  /-- The conversation to which a search of messages is restricted. -/
  conversationId : Option String := none
  deriving DecidableEq

namespace Request

/-- A search of messages for a text. -/
def messages (query : String) : Request :=
  { query := some query, target := .message }

/-- A search of conversations for a text. -/
def conversations (query : String) : Request :=
  { query := some query, target := .conversation }

/-- The same search with other filters. -/
def withFilters (r : Request) (filters : Filters) : Request :=
  { r with filters := filters }

/-- The same search in one conversation. -/
def inConversation (r : Request) (id : String) : Request :=
  { r with conversationId := some id }

/-- The text to look for, without the blanks around it. -/
def queryText (r : Request) : Option String :=
  r.query.bind Text.nonBlank

/-- The members of a request. -/
def shape : Shape Request :=
  Request.mk
    <$> .defaulted "query" (Decoder.option Decoder.string) none
    <*> .defaulted "searchType" Entity.decoder .message
    <*> .defaulted "filters"
      (fun source r => (·.getD {}) <$> Decoder.option Filters.decoder source r) {}
    <*> .defaulted "conversationId" (.blankable .ok) none

/-- Reads a request. -/
def decoder : Decoder Request :=
  shape.decoder "SearchRequest"

/-- The request with its members in the order in which they are declared, as clients send it. -/
def declaredJson (r : Request) : Json :=
  .object
    (Json.member? "query" .string r.query ++
     [("searchType", r.target.toJson), ("filters", .object r.filters.declaredMembers)] ++
     Json.member? "conversationId" .string r.conversationId)

/-- The request as a JSON value. -/
def toJson (r : Request) : Json :=
  .object
    (Json.member? "conversationId" .string r.conversationId ++
     [("filters", r.filters.toJson)] ++
     Json.member? "query" .string r.query ++
     [("searchType", r.target.toJson)])

end Request
end ConversationSearch

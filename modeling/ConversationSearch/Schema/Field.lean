import ConversationSearch.Json.Decoder
import ConversationSearch.Text.Cutting

/-!
# Declared fields

A declaration says how the index treats each field of a document: kept verbatim for exact matching,
analysed for full-text matching, both, or stored as a structured type. Filters resolve their target
through `exactField`, so that a field that is only analysed is never matched exactly.
-/

namespace ConversationSearch

/-- The kinds of document, each with an index of its own. -/
inductive Entity
  | conversation
  | message
  deriving DecidableEq, Repr

namespace Entity

/-- The name of a kind of document. -/
def name : Entity → String
  | .conversation => "conversation"
  | .message => "message"

/-- The kinds by their names. -/
def table : List (String × Entity) :=
  [("conversation", .conversation), ("message", .message)]

/-- All kinds, in the order in which their indices are handled. -/
def all : List Entity :=
  [.conversation, .message]

/-- The kind with a name. -/
def ofName? (s : String) : Option Entity :=
  table.lookup s

/-- Reads the name of a kind of document. -/
def decoder : Json.Decoder Entity :=
  Json.Decoder.variant table

/-- The name as a JSON value. -/
def toJson (e : Entity) : Json :=
  .string e.name

end Entity

namespace Schema

/-- How the index treats a field. -/
inductive FieldKind
  /-- Kept verbatim. -/
  | keyword
  /-- Analysed, not kept verbatim. -/
  | text
  /-- Analysed, and kept verbatim in a field below it. -/
  | textWithKeyword
  | date
  | boolean
  /-- Documents inside the document, whose fields match as a unit. -/
  | nested (fields : List (String × FieldKind))
  deriving Repr

/-- The fields that are declared, in their order. -/
abbrev Fields := List (String × FieldKind)

/-- The name of the verbatim field below an analysed one. -/
def keywordSubfield : String :=
  "keyword"

namespace FieldKind

/-- The name of a kind in a mapping. -/
def typeName : FieldKind → String
  | .keyword => "keyword"
  | .text => "text"
  | .textWithKeyword => "text"
  | .date => "date"
  | .boolean => "boolean"
  | .nested _ => "nested"

/-- Whether the field is analysed. -/
def isFullText : FieldKind → Bool
  | .text | .textWithKeyword => true
  | _ => false

/-- Whether the field can be compared with instants. -/
def isDate : FieldKind → Bool
  | .date => true
  | _ => false

/-- The path that matches a field of this kind exactly, given the path of the field. -/
def exactPath (path : String) : FieldKind → Option String
  | .keyword | .boolean => some path
  | .textWithKeyword => some (path ++ "." ++ keywordSubfield)
  | .text | .date | .nested _ => none

end FieldKind

/-- The kind of the field that a list of segments leads to; each but the last is the name of a
nested field. -/
def resolve (fields : Fields) : List String → Option FieldKind
  | [] => none
  | [name] => fields.lookup name
  | name :: rest =>
    match fields.lookup name with
    | some (.nested inner) => resolve inner rest
    | _ => none

/-- The kind of the field with a dotted path. -/
def field? (fields : Fields) (path : String) : Option FieldKind :=
  resolve fields (Text.segments path)

/-- The path that an exact match of a field has to name, if the field is kept verbatim. -/
def exactField (fields : Fields) (path : String) : Option String :=
  (field? fields path).bind (·.exactPath path)

/-- Whether a field is analysed and so can be searched for text. -/
def isFullText (fields : Fields) (path : String) : Bool :=
  (field? fields path).any (·.isFullText)

/-- Whether a field can be compared with instants. -/
def isDate (fields : Fields) (path : String) : Bool :=
  (field? fields path).any (·.isDate)

/-- The fields of an identity inside a conversation. -/
def participantFields : Fields :=
  [("username", .textWithKeyword), ("handle", .textWithKeyword)]

/-- The fields of a conversation. -/
def conversationFields : Fields :=
  [("id", .keyword),
   ("username", .textWithKeyword),
   ("handle", .textWithKeyword),
   ("lastMessage", .text),
   ("date", .date),
   ("participants", .nested participantFields)]

/-- The fields of a message. -/
def messageFields : Fields :=
  [("id", .keyword),
   ("conversationId", .keyword),
   ("username", .textWithKeyword),
   ("handle", .textWithKeyword),
   ("text", .text),
   ("date", .date),
   ("mentions", .textWithKeyword),
   ("attachmentType", .keyword),
   ("pinned", .boolean)]

end Schema

/-- The fields that are declared for a kind of document. -/
def Entity.fields : Entity → Schema.Fields
  | .conversation => Schema.conversationFields
  | .message => Schema.messageFields

end ConversationSearch

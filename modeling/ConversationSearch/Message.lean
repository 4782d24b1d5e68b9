import ConversationSearch.Handles
import ConversationSearch.Json.Decoder
import ConversationSearch.Time.Stamp

/-!
# Messages

A message is a single post within a conversation. Its date is written to the millisecond and read
from a timestamp or from a number of milliseconds since 1970. The handles it mentions form a set,
kept in ascending order.
-/

namespace ConversationSearch

/-- The kinds of attachment that a message can carry. -/
inductive Attachment
  | image
  | file
  | link
  deriving DecidableEq, Repr

namespace Attachment

/-- The name of a kind of attachment. -/
def name : Attachment → String
  | .image => "image"
  | .file => "file"
  | .link => "link"

/-- The kinds by their names. -/
def table : List (String × Attachment) :=
  [("image", .image), ("file", .file), ("link", .link)]

/-- The kind with a name, upper and lower case of ASCII letters being the same. -/
def ofName? (s : String) : Option Attachment :=
  table.lookup (String.ofList (s.toList.map Char.toLower))

end Attachment

/-- The wording for a name that names nothing. -/
def unknownName : String :=
  "Matching variant not found"

/-- A single post within a conversation. -/
structure Message where
  id : String
  conversationId : String
  username : String
  handle : String
  text : String
  date : Time.Instant
  mentions : Handles
  attachment : Option Attachment
  pinned : Bool
  deriving DecidableEq

/-- The largest number of milliseconds that is taken for a date, `2 ^ 63 - 1`. -/
def Time.Instant.maxMillis : Int := 9223372036854775807

/-- Reads a date: a timestamp, or the milliseconds since 1970. -/
def Time.Instant.decoder : Json.Decoder Time.Instant
  | _, .string s =>
    (Time.parse s).mapError fun e => .of (.refused e.message)
  | _, .number (.int n) =>
    if maxMillis < n then .error (.of (.refused "number too large to fit in target type"))
    else
      match ofEpochMillis? n with
      | some t => .ok t
      | none =>
        .error (.of (.refused
          ("epoch millis out of range: " ++ String.ofList (Text.integer n))))
  | _, r => .error (Json.Decoder.mismatch "an RFC 3339 timestamp or epoch milliseconds" r)

/-- Reads a set of handles from an array in any order and with repetitions. -/
def Handles.decoder : Json.Decoder Handles := fun source r =>
  Handles.ofList <$> Json.Decoder.list Json.Decoder.string source r

/-- Reads the name of a kind of attachment. -/
def Attachment.decoder : Json.Decoder Attachment :=
  Json.Decoder.variant table

namespace Message

open Json (Shape Decoder)

/-- The members of a message. -/
def shape : Shape Message :=
  Message.mk
    <$> .required "id" Decoder.string
    <*> .required "conversationId" Decoder.string
    <*> .required "username" Decoder.string
    <*> .required "handle" Decoder.string
    <*> .required "text" Decoder.string
    <*> .required "date" Time.Instant.decoder
    <*> .defaulted "mentions" Handles.decoder .empty
    <*> .defaulted "attachmentType" (Decoder.option Attachment.decoder) none
    <*> .defaulted "pinned" Decoder.bool false

/-- Reads a message. -/
def decoder : Decoder Message :=
  shape.decoder "Message"

/-- The members of a message behind the kind of its attachment. -/
def plainMembers (m : Message) : List (String × Json) :=
  [("conversationId", .string m.conversationId),
   ("date", .string m.date.text),
   ("handle", .string m.handle),
   ("id", .string m.id),
   ("mentions", .array (m.mentions.toList.map .string)),
   ("pinned", .bool m.pinned),
   ("text", .string m.text),
   ("username", .string m.username)]

/-- The members of a message; without an attachment nothing is said of its kind. -/
def members (m : Message) : List (String × Json) :=
  match m.attachment with
  | none => m.plainMembers
  | some a => ("attachmentType", .string a.name) :: m.plainMembers

/-- The document of a message. -/
def toJson (m : Message) : Json :=
  .object m.members

end Message
end ConversationSearch

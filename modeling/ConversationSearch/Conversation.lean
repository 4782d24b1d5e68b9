import ConversationSearch.Message

/-!
# Conversations

A conversation is a thread with a nominal owner, the identities that take part in it, and a
snapshot of its latest message.
-/

namespace ConversationSearch

open Json (Shape Decoder)

/-- An identity that takes part in a conversation. -/
structure Participant where
  username : String
  handle : String
  deriving DecidableEq, Repr

namespace Participant

/-- The members of a participant. -/
def shape : Shape Participant :=
  Participant.mk
    <$> .required "username" Decoder.string
    <*> .required "handle" Decoder.string

/-- Reads a participant. -/
def decoder : Decoder Participant :=
  shape.decoder "Participant"

/-- The document of a participant. -/
def toJson (p : Participant) : Json :=
  .object [("handle", .string p.handle), ("username", .string p.username)]

end Participant

/-- A thread. -/
structure Conversation where
  id : String
  username : String
  handle : String
  lastMessage : String
  date : Time.Instant
  participants : List Participant
  deriving DecidableEq

namespace Conversation

/-- The members of a conversation. -/
def shape : Shape Conversation :=
  Conversation.mk
    <$> .required "id" Decoder.string
    <*> .required "username" Decoder.string
    <*> .required "handle" Decoder.string
    <*> .required "lastMessage" Decoder.string
    <*> .required "date" Time.Instant.decoder
    <*> .required "participants" (Decoder.list Participant.decoder)

/-- Reads a conversation. -/
def decoder : Decoder Conversation :=
  shape.decoder "Conversation"

/-- The document of a conversation. -/
def toJson (c : Conversation) : Json :=
  .object
    [("date", .string c.date.text),
     ("handle", .string c.handle),
     ("id", .string c.id),
     ("lastMessage", .string c.lastMessage),
     ("participants", .array (c.participants.map Participant.toJson)),
     ("username", .string c.username)]

/-- Whether the owner is among the participants. -/
def ownerParticipates (c : Conversation) : Bool :=
  c.participants.any (·.handle == c.handle)

end Conversation
end ConversationSearch

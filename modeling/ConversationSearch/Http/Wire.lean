import ConversationSearch.Http.Url

/-!
# Wires

A wire carries requests to a server and brings replies back. Whatever sends requests works with
any wire and in any monad: over a network, or over a `Script`, which holds the replies in advance
and keeps what was sent.

A reply may also fail to come, because the connection breaks or because the time is up. If that
happens once its status is there, then only its body is missing.
-/

namespace ConversationSearch

/-- What a request does with a resource. -/
inductive Method
  | get
  | head
  | post
  | put
  | delete
  deriving DecidableEq, Repr

/-- The name of a method. -/
def Method.name : Method → String
  | .get => "GET"
  | .head => "HEAD"
  | .post => "POST"
  | .put => "PUT"
  | .delete => "DELETE"

/-- A request as it is sent. -/
structure WireRequest where
  method : Method
  url : Url
  headers : List (String × String)
  body : String
  deriving DecidableEq, Repr

/-- What comes of a request. -/
inductive Reply
  | answered (status : UInt16) (body : String)
  /-- An answer came, but its body could not be read to the end. -/
  | broken (status : UInt16) (reason : String)
  /-- The connection could not be made, or it broke before an answer came. -/
  | dropped
  /-- No answer came in time. -/
  | stalled
  deriving DecidableEq, Repr

namespace Reply

/-- The status of an answer. -/
def status? : Reply → Option UInt16
  | .answered status _ | .broken status _ => some status
  | .dropped | .stalled => none

/-- Whether a status is one of success. -/
def isSuccess (status : UInt16) : Bool :=
  200 ≤ status && status ≤ 299

/-- The reply to a request with the method: one to `HEAD` has no body, so that none can be
missing. -/
def toMethod (m : Method) : Reply → Reply
  | .answered status body => .answered status (if m = .head then "" else body)
  | .broken status reason => if m = .head then .answered status "" else .broken status reason
  | r => r

end Reply

/-- Sends requests and waits. -/
structure Wire (m : Type → Type) where
  send : WireRequest → m Reply
  /-- Waits for some nanoseconds. -/
  pause : Nat → m Unit

namespace Wire

/-- The wire to a server that cannot be reached. -/
def unreachable [Monad m] : Wire m where
  send _ := return .dropped
  pause _ := return ()

end Wire

/-- Replies that are still to come, and what was done up to now. -/
structure Script where
  replies : List Reply := []
  sent : List WireRequest := []
  pauses : List Nat := []
  deriving DecidableEq, Repr

namespace Script

/-- The reply when there is none left. -/
def exhausted : Reply :=
  .answered 500 "no reply scripted"

/-- Takes a request and gives the next reply. -/
def serve (r : WireRequest) (s : Script) : Reply × Script :=
  ((s.replies.head?.getD exhausted).toMethod r.method,
    { s with replies := s.replies.tail, sent := s.sent ++ [r] })

/-- The wire over a script. -/
def wire : Wire (StateM Script) where
  send := serve
  pause n := modify fun s => { s with pauses := s.pauses ++ [n] }

end Script
end ConversationSearch

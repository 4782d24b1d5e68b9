import ConversationSearch.Http.Wire
import ConversationSearch.Text.Digits

/-!
# Messages

A request goes over a connection as a line, headers and a body, and a reply comes back in the same
form. The connection is closed after the reply. The body of a reply is as long as its headers say;
it may come in chunks, each after a line with its length, and without either it ends with the
connection. If the connection ends before the body does, the reply is broken. Replies in a
compressed form are not asked for.
-/

namespace ConversationSearch

namespace WireRequest

/-- The end of a line. -/
def lineEnd : String :=
  "\r\n"

/-- The host of a request and the number behind it. -/
def authority (r : WireRequest) : String :=
  r.url.host ++ (r.url.tcpPort.map fun n => ":" ++ String.ofList (Text.digits n.toNat)).getD ""

/-- The headers that a request has on its way. -/
def headersOnWay (r : WireRequest) : List (String × String) :=
  [("host", r.authority), ("connection", "close"),
    ("content-length", String.ofList (Text.digits r.body.utf8ByteSize))] ++
    r.headers.filter (·.1 != "accept-encoding")

/-- The text of a request. -/
def message (r : WireRequest) : String :=
  let lines := (r.method.name ++ " " ++ r.url.target ++ " HTTP/1.1") ::
    r.headersOnWay.map fun h => h.1 ++ ": " ++ h.2
  String.join (lines.map (· ++ lineEnd)) ++ lineEnd ++ r.body

end WireRequest

namespace Reply

/-- The text of octets. -/
def textOf (bs : List UInt8) : String :=
  (String.fromUTF8? ⟨bs.toArray⟩).getD "\uFFFD"

/-- A line and what follows it. -/
def takeLine : List UInt8 → Option (List UInt8 × List UInt8)
  | [] => none
  | 13 :: 10 :: rest => some ([], rest)
  | b :: rest => (takeLine rest).map fun r => (b :: r.1, r.2)

/-- The lines up to an empty one, and what follows that. There are no more lines than octets. -/
def takeHead : (supply : Nat) → List UInt8 → Option (List String × List UInt8)
  | 0, _ => none
  | supply + 1, bs => do
    let (line, rest) ← takeLine bs
    if line.isEmpty then return ([], rest)
    let (lines, rest) ← takeHead supply rest
    return (textOf line :: lines, rest)

/-- The status in the first line of a reply. -/
def statusOf (line : String) : Option UInt16 := do
  let code := (((line.toList.dropWhile (· != ' ')).drop 1).takeWhile Text.isDigit)
  guard (code.length = 3)
  return .ofNat (Text.number code)

/-- The value of a header, its name being given in small letters. -/
def headerIn (lines : List String) (name : String) : Option String :=
  lines.findSome? fun line =>
    let key := (line.toList.takeWhile (· != ':')).map Char.toLower
    if String.ofList key = name then
      some (String.ofList ((line.toList.drop (key.length + 1)).dropWhile (· == ' ')))
    else none

/-- The content of chunks, up to an empty one. There are no more chunks than octets. -/
def joinChunks : (supply : Nat) → List UInt8 → Option (List UInt8)
  | 0, _ => none
  | supply + 1, bs => do
    let (line, rest) ← takeLine bs
    let length ← Text.hexNumber? ((textOf line).toList.takeWhile fun c => c != ';' && c != ' ')
    if length = 0 then return []
    let (_, next) ← takeLine (rest.drop length)
    let content ← joinChunks supply next
    return rest.take length ++ content

/-- The body behind a head. -/
def bodyAfter (lines : List String) (bs : List UInt8) : Option (List UInt8) :=
  if (headerIn lines "transfer-encoding").any fun v => v.toLower == "chunked" then
    joinChunks (bs.length + 1) bs
  else
    match headerIn lines "content-length" with
    | none => some bs
    | some text =>
      let length := Text.number (text.toList.takeWhile Text.isDigit)
      if length ≤ bs.length then some (bs.take length) else none

/-- Why a body cannot be read to the end. -/
def unfinished : String :=
  "request or response body error: error reading a body from connection"

/-- The reply to a request with the method, from all that came over the connection. -/
def ofOctets (m : Method) (bs : List UInt8) : Reply :=
  let read? : Option Reply := do
    let (head, rest) ← takeHead (bs.length + 1) bs
    let status ← statusOf (← head.head?)
    if m = .head ∨ status = 204 ∨ status = 304 then return .answered status ""
    return match bodyAfter head.tail rest with
      | some body => .answered status (textOf body)
      | none => .broken status unfinished
  read?.getD .dropped

end Reply
end ConversationSearch

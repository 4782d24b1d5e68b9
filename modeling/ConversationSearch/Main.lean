import ConversationSearch.CommandLine.Perform
import ConversationSearch.Http.Message
import Std.Async.DNS
import Std.Async.TCP

/-!
# The program

`main` runs a command line over the network. This is the outer layer: it opens connections, reads
files and prints. Connections are not encrypted, so that a server that asks for encryption is out
of reach.
-/

namespace ConversationSearch.Network

open Std.Async Std.Net

/-- The address of a server on a host. -/
def addressOf (ip : IPAddr) (tcpPort : UInt16) : SocketAddress :=
  match ip with
  | .v4 address => .v4 ⟨address, tcpPort⟩
  | .v6 address => .v6 ⟨address, tcpPort⟩

/-- The host without the brackets around it. -/
def bareHost (host : String) : String :=
  String.ofList (host.toList.filter fun c => c != '[' && c != ']')

/-- What comes next over a connection: nothing, if it is closed or breaks. -/
def next? (socket : TCP.Socket.Client) : IO (Option ByteArray) := do
  try (socket.recv? 65536).block
  catch _ => return none

/-- Takes what comes over a connection. -/
partial def receive (socket : TCP.Socket.Client) (received : ByteArray) : IO ByteArray := do
  match ← next? socket with
  | some octets => receive socket (received ++ octets)
  | none => return received

/-- Sends a request over a new connection. -/
def exchange (r : WireRequest) : IO Reply := do
  if r.url.secure then return .dropped
  let tcpPort := r.url.tcpPort.getD 80
  let addresses ← (DNS.getAddrInfo (bareHost r.url.host) (toString tcpPort)).block
  match addresses[0]? with
  | none => return .dropped
  | some ip =>
    let socket ← TCP.Socket.Client.mk
    (socket.connect (addressOf ip tcpPort)).block
    (socket.send r.message.toUTF8).block
    return .ofOctets r.method (← receive socket .empty).toList

/-- The wire over the network; what breaks counts as a dropped connection. -/
def wire : Wire IO where
  send r := do
    try exchange r
    catch _ => return .dropped
  pause n := IO.sleep (n / 1000000).toUInt32

/-- What a file holds, if it can be read as text. -/
def contentOf (path : String) : IO (Option String) := do
  try return some (← IO.FS.readFile path)
  catch _ => return none

end ConversationSearch.Network

namespace ConversationSearch

/-- Runs the program: prints what there is to print and gives the code at the end. -/
def runCommandLine (args : List String) : IO UInt32 := do
  let outcome ← CommandLine.run Network.wire Network.contentOf args
  IO.print outcome.output
  match outcome.complaint with
  | none => pure ()
  | some complaint => IO.eprintln complaint
  return outcome.code

end ConversationSearch

/-- Runs the program. -/
def main (args : List String) : IO UInt32 :=
  ConversationSearch.runCommandLine args

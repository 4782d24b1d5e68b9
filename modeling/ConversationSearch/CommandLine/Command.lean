import ConversationSearch.CommandLine.Grammar
import ConversationSearch.Search.Request

/-!
# Commands

A command line says to which server it goes and what is asked of it: a search, the preparation of
the indices, a look at the mappings or at the health of server and engine, or the writing of
documents from a file. Kinds of documents, kinds of attachments and dates have to be acceptable;
all other values are taken as they are.
-/

namespace ConversationSearch.CommandLine

/-- What is asked of a server. -/
inductive Command
  | search (request : Request)
  | setup
  | mappings
  | health
  /-- Write the documents that a file holds. -/
  | index (file : String)
  deriving DecidableEq

/-- What is asked, and of which server. -/
structure Invocation where
  endpoint : String
  command : Command
  deriving DecidableEq

namespace Command

/-- The options of a search. -/
def searchGrammar : Grammar where
  choices :=
    [{ name := "type", letter := some 't' },
     { name := "from", letter := some 'f' },
     { name := "mentions", letter := some 'm' },
     { name := "has" },
     { name := "before" },
     { name := "after" },
     { name := "during" },
     { name := "pinned", letter := some 'p', takesValue := false },
     { name := "conversation", letter := some 'c' }]
  maxWords := 1

/-- The instant that a value stands for. -/
def instant? (s : String) : Option Time.Instant :=
  (Time.parse s).toOption

/-- The search that was asked for. -/
def searchOf (given : Given) : Except UsageFault Command := do
  let target ← given.read? "type" Entity.ofName?
  let attachment ← given.read? "has" Attachment.ofName?
  let before ← given.read? "before" instant?
  let after ← given.read? "after" instant?
  let during ← given.read? "during" instant?
  return .search {
    query := some (given.words.head?.getD "")
    target := target.getD .message
    filters := {
      author := given.value? "from"
      mention := given.value? "mentions"
      attachment := attachment
      before := before
      after := after
      during := during
      pinned := if given.has "pinned" then some true else none }
    conversationId := given.value? "conversation" }

/-- The file whose documents are to be written. -/
def indexOf (given : Given) : Except UsageFault Command :=
  match given.words with
  | [] => .error (.missingWord "FILE")
  | "" :: _ => .error (.unacceptableValue "FILE" "")
  | file :: _ => .ok (.index file)

/-- The names of the commands. -/
def names : List String :=
  ["search", "setup", "mappings", "health", "index", Grammar.helpName]

/-- Reads a command by its name and its arguments. -/
def parse (name : String) (args : List String) : Except UsageFault Command := do
  match name with
  | "search" => searchOf (← searchGrammar.read args).1
  | "index" => indexOf (← Grammar.read { maxWords := 1 } args).1
  | "setup" => (Grammar.read {} args).map fun _ => .setup
  | "mappings" => (Grammar.read {} args).map fun _ => .mappings
  | "health" => (Grammar.read {} args).map fun _ => .health
  | _ => .error .helpWanted

end Command

namespace Invocation

/-- The options in front of a command. -/
def grammar : Grammar where
  choices := [{ name := "endpoint", letter := some 'e' }]
  commands := Command.names

/-- The server where none is named. -/
def defaultEndpoint : String :=
  "http://localhost:8080"

/-- Reads a command line. -/
def parse (args : List String) : Except UsageFault Invocation := do
  match ← grammar.read args with
  | (_, none) => .error .missingCommand
  | (given, some (name, rest)) =>
    let command ← Command.parse name rest
    return ⟨(given.value? "endpoint").getD defaultEndpoint, command⟩

end Invocation
end ConversationSearch.CommandLine

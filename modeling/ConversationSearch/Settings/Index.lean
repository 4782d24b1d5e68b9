import ConversationSearch.Schema.Field

/-!
# Settings of the connection to the engine

The settings say where the engine is, how patient the client is with it, what searches ask of it,
and which index holds which kind of document. Every setting has a default. The names of a user and
a password are not settings; what is set is the names of the environment variables that hold them.
-/

namespace ConversationSearch

open Json (Shape Decoder)

/-- The variables of an environment, by name. -/
abbrev Environment := List (String × String)

/-- The value of a variable. -/
def Environment.get? (env : Environment) (name : String) : Option String :=
  List.lookup name env

/-- Settings of the connection to the engine. -/
structure IndexSettings where
  /-- Where the engine is. -/
  url : String := "http://localhost:9200"
  /-- The variable that holds the name of the user. -/
  usernameEnv : Option String := none
  /-- The variable that holds the password. -/
  passwordEnv : Option String := none
  /-- How long a request may take, in milliseconds. -/
  requestTimeoutMs : UInt64 := 5000
  /-- How often a request that changes nothing is tried again. -/
  maxRetries : UInt32 := 3
  /-- The wait before the first of those, which doubles each time, in milliseconds. -/
  retryBackoffMs : UInt64 := 100
  /-- Whether certificates that cannot be verified are accepted. -/
  acceptInvalidCerts : Bool := false
  /-- Whether compressed answers are accepted. -/
  compression : Bool := true
  /-- Whether searches of messages ask for marked fragments. -/
  enableHighlighting : Bool := true
  /-- Whether the engine has to answer a ping before each search. -/
  preflightPing : Bool := true
  /-- The index of conversations. -/
  conversationsIndex : String := "conversations"
  /-- The index of messages. -/
  messagesIndex : String := "messages"
  deriving DecidableEq, Repr

namespace IndexSettings

/-- The index that holds a kind of document. -/
def indexName (s : IndexSettings) : Entity → String
  | .conversation => s.conversationsIndex
  | .message => s.messagesIndex

/-- The name and the password of the user. Without a name there are none; a password that is not
there is empty. -/
def credentials (s : IndexSettings) (env : Environment) : Option (String × String) := do
  let username ← s.usernameEnv.bind env.get?
  return (username, (s.passwordEnv.bind env.get?).getD "")

/-- The members of the settings. -/
def shape : Shape IndexSettings :=
  IndexSettings.mk
    <$> .defaulted "url" Decoder.string (IndexSettings.url {})
    <*> .defaulted "username_env" (Decoder.option Decoder.string) none
    <*> .defaulted "password_env" (Decoder.option Decoder.string) none
    <*> .defaulted "request_timeout_ms" Decoder.uint64 (requestTimeoutMs {})
    <*> .defaulted "max_retries" Decoder.uint32 (maxRetries {})
    <*> .defaulted "retry_backoff_ms" Decoder.uint64 (retryBackoffMs {})
    <*> .defaulted "accept_invalid_certs" Decoder.bool (acceptInvalidCerts {})
    <*> .defaulted "compression" Decoder.bool (compression {})
    <*> .defaulted "enable_highlighting" Decoder.bool (enableHighlighting {})
    <*> .defaulted "preflight_ping" Decoder.bool (preflightPing {})
    <*> .defaulted "conversations_index" Decoder.string (conversationsIndex {})
    <*> .defaulted "messages_index" Decoder.string (messagesIndex {})

/-- Reads the settings; what is left out has its default. -/
def decoder : Decoder IndexSettings :=
  shape.decoder "IndexConfig"

/-- The settings as a JSON value. -/
def toJson (s : IndexSettings) : Json :=
  .object
    [("accept_invalid_certs", .bool s.acceptInvalidCerts),
     ("compression", .bool s.compression),
     ("conversations_index", .string s.conversationsIndex),
     ("enable_highlighting", .bool s.enableHighlighting),
     ("max_retries", .nat s.maxRetries.toNat),
     ("messages_index", .string s.messagesIndex),
     ("password_env", .ofText? s.passwordEnv),
     ("preflight_ping", .bool s.preflightPing),
     ("request_timeout_ms", .nat s.requestTimeoutMs.toNat),
     ("retry_backoff_ms", .nat s.retryBackoffMs.toNat),
     ("url", .string s.url),
     ("username_env", .ofText? s.usernameEnv)]

end IndexSettings
end ConversationSearch

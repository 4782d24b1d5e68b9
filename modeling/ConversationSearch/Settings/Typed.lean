import ConversationSearch.Settings.Basic
import ConversationSearch.Settings.Fault

/-!
# Settings from layers

What the layers hold for a setting is turned into its type. Types are lenient towards each other:
numbers and truth values serve as texts, texts and truth values as numbers, numbers and some words
as truth values. A fraction is rounded to the nearest whole number, a half away from zero, and
stays within sixty-four bits.

A section is a table. A list serves too, its items being the settings in their order.
-/

namespace ConversationSearch

/-- Turns what is held for a setting into the setting. -/
abbrev Typed (α : Type) := Node → Except SettingsFault α

namespace Typed

/-- The origin of a value. -/
def origin? : Node → Option String
  | .unset => none
  | .scalar origin _ => origin
  | .list origin _ => origin
  | .table origin _ => origin

/-- The fault of a value that does not fit. -/
def unusable (expected : String) (n : Node) : SettingsFault :=
  .unusable (Seen.ofNode n) expected "" (origin? n)

/-- A text. -/
def text : Typed String
  | .scalar _ (.string s) => .ok s
  | .scalar _ (.bool b) => .ok (Seen.boolText b)
  | .scalar _ (.int n) => .ok (String.ofList (Text.integer n))
  | .scalar _ (.real d) => .ok (String.ofList d.plainText)
  | n => .error (unusable "a string" n)

/-- A text that may be absent. -/
def text? : Typed (Option String)
  | .unset => .ok none
  | n => some <$> text n

/-- The truth value that a word in small letters stands for. -/
def truthOfWord (word : String) : Option Bool :=
  if word = "true" ∨ word = "on" ∨ word = "yes" then some true
  else if word = "false" ∨ word = "off" ∨ word = "no" then some false
  else none

/-- A truth value. -/
def truth : Typed Bool
  | .scalar _ (.bool b) => .ok b
  | .scalar _ (.int n) => .ok (n != 0)
  | .scalar _ (.real d) => .ok (!d.isZero)
  | .scalar origin (.string s) =>
    let word := Text.lower s
    if word = "1" then .ok true
    else if word = "0" then .ok false
    else
      match truthOfWord word with
      | some b => .ok b
      | none => .error (.unusable (.string word) "a boolean" "" origin)
  | n => .error (unusable "a boolean" n)

/-- The largest number of sixty-four bits, `2 ^ 64 - 1`. -/
def maxNatural : Nat := 18446744073709551615

/-- The number nearest to a double within sixty-four bits; what is not a number counts as zero. -/
def rounded (d : Json.Double) : Nat :=
  if d.isNaN || d.isNegative then 0
  else if d.isFinite then min d.roundHalfUp maxNatural
  else maxNatural

/-- The number of sixty-four bits that digits, perhaps behind a plus sign, stand for. -/
def naturalOfText (s : String) : Option Nat :=
  let digits := match s.toList with
    | '+' :: rest => rest
    | cs => cs
  (Text.natural? digits).filter (· ≤ maxNatural)

/-- A number of sixty-four bits. -/
def natural : Typed Nat
  | .scalar _ (.bool b) => .ok b.toNat
  | .scalar origin (.int n) =>
    if 0 ≤ n then .ok n.toNat
    else .error (.unusable (.int n) "an unsigned 64 bit or less integer" "" origin)
  | .scalar _ (.real d) => .ok (rounded d)
  | .scalar origin (.string s) =>
    match (truthOfWord (Text.lower s)).map Bool.toNat <|> naturalOfText s with
    | some n => .ok n
    | none => .error (.unusable (.string s) "an integer" "" origin)
  | n => .error (unusable "an integer" n)

/-- A number of fewer bits. -/
def naturalOfWidth (width : Nat) (expected : String) : Typed Nat := fun node => do
  let n ← natural node
  if n < Nat.pow 2 width then return n else throw (.unusable (.natural n) expected "" none)

/-- A number of sixty-four bits. -/
def uint64 : Typed UInt64 := fun node =>
  .ofNat <$> natural node

/-- A number of thirty-two bits. -/
def uint32 : Typed UInt32 := fun node =>
  .ofNat <$> naturalOfWidth 32 "an unsigned 32 bit integer" node

/-- A number of sixteen bits. -/
def uint16 : Typed UInt16 := fun node =>
  .ofNat <$> naturalOfWidth 16 "an unsigned 16 bit integer" node

end Typed

/-- The settings of a section, by name or in their order. -/
inductive SectionParts
  | named (members : List (String × Node))
  | listed (items : List Node)

namespace SectionParts

/-- The settings of a section of the given kind. -/
def ofNode (kind : String) : Typed SectionParts
  | .table _ members => .ok (.named members)
  | .list _ items => .ok (.listed items)
  | n => .error (.notSection (Seen.ofNode n) ("struct " ++ kind))

/-- What is held for a setting, and the segment of its key. -/
def find? (position : Nat) (name : String) : SectionParts → Option (String × Node)
  | .named members => (members.lookup name).map (name, ·)
  | .listed items =>
    items[position]?.map ("[" ++ String.ofList (Text.digits position) ++ "]", ·)

/-- A setting of the section; where nothing is held for it, its default. -/
def setting (parts : SectionParts) (position : Nat) (name : String) (typed : Typed α)
    (default : α) : Except SettingsFault α :=
  match parts.find? position name with
  | none => .ok default
  | some (segment, node) => (typed node).mapError (·.under segment)

end SectionParts

/-- The settings of the server's address. -/
def ServerSettings.ofNode : Typed ServerSettings := fun node => do
  let parts ← SectionParts.ofNode "ServerConfig" node
  return {
    host := ← parts.setting 0 "host" Typed.text (host {})
    httpPort := ← parts.setting 1 "http_port" Typed.uint16 (httpPort {}) }

/-- The settings of the connection to the engine. -/
def IndexSettings.ofNode : Typed IndexSettings := fun node => do
  let parts ← SectionParts.ofNode "IndexConfig" node
  return {
    url := ← parts.setting 0 "url" Typed.text (url {})
    usernameEnv := ← parts.setting 1 "username_env" Typed.text? none
    passwordEnv := ← parts.setting 2 "password_env" Typed.text? none
    requestTimeoutMs := ← parts.setting 3 "request_timeout_ms" Typed.uint64 (requestTimeoutMs {})
    maxRetries := ← parts.setting 4 "max_retries" Typed.uint32 (maxRetries {})
    retryBackoffMs := ← parts.setting 5 "retry_backoff_ms" Typed.uint64 (retryBackoffMs {})
    acceptInvalidCerts :=
      ← parts.setting 6 "accept_invalid_certs" Typed.truth (acceptInvalidCerts {})
    compression := ← parts.setting 7 "compression" Typed.truth (compression {})
    enableHighlighting :=
      ← parts.setting 8 "enable_highlighting" Typed.truth (enableHighlighting {})
    preflightPing := ← parts.setting 9 "preflight_ping" Typed.truth (preflightPing {})
    conversationsIndex :=
      ← parts.setting 10 "conversations_index" Typed.text (conversationsIndex {})
    messagesIndex := ← parts.setting 11 "messages_index" Typed.text (messagesIndex {}) }

/-- The settings of what is logged. -/
def ObservabilitySettings.ofNode : Typed ObservabilitySettings := fun node => do
  let parts ← SectionParts.ofNode "ObservabilityConfig" node
  return {
    logLevel := ← parts.setting 0 "log_level" Typed.text (logLevel {})
    jsonLogs := ← parts.setting 1 "json_logs" Typed.truth (jsonLogs {}) }

/-- All settings. -/
def Settings.ofNode : Typed Settings := fun node => do
  let parts ← SectionParts.ofNode "Config" node
  return {
    server := ← parts.setting 0 "server" ServerSettings.ofNode {}
    index := ← parts.setting 1 "index" IndexSettings.ofNode {}
    observability := ← parts.setting 2 "observability" ObservabilitySettings.ofNode {} }

end ConversationSearch

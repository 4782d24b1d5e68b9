import ConversationSearch.Proofs.Settings.Sections

/-!
# Single settings

Every setting has a place, which is a name within a section, and a type. Where settings can be read,
each of them is what is held at its place, turned into its type, and its default where nothing is
held there. This needs the section to be no list: the items of a list are read by their order.
-/

namespace ConversationSearch

/-- What is held turned into its type; where nothing is held, the default. -/
def Typed.orDefault {α : Type} (typed : Typed α) (default : α) :
    Option Node → Except SettingsFault α
  | none => .ok default
  | some node => typed node

theorem SectionParts.orDefault_of_setting {α : Type} {kind key : String} {typed : Typed α}
    {node : Node} {default a : α} {parts : SectionParts} {position : Nat}
    (hlist : ¬Node.IsList (some node)) (hparts : ofNode kind node = .ok parts)
    (h : parts.setting position key typed default = .ok a) :
    typed.orDefault default (Node.member? key (some node)) = .ok a := by
  cases node with
  | table origin members =>
    obtain rfl := Except.ok.inj hparts
    change typed.orDefault default (members.lookup key) = .ok a
    cases hheld : members.lookup key with
    | none => rwa [setting_of_missing hheld] at h
    | some held => exact typed_of_setting hheld h
  | list origin items => exact absurd ⟨origin, items, rfl⟩ hlist
  | scalar origin s => contradiction
  | unset => contradiction

namespace Settings

/-- The settings. -/
inductive Setting
  | host
  | httpPort
  | url
  | usernameEnv
  | passwordEnv
  | requestTimeoutMs
  | maxRetries
  | retryBackoffMs
  | acceptInvalidCerts
  | compression
  | enableHighlighting
  | preflightPing
  | conversationsIndex
  | messagesIndex
  | logLevel
  | jsonLogs
  deriving DecidableEq

namespace Setting

/-- All settings. -/
def all : List Setting :=
  [host, httpPort, url, usernameEnv, passwordEnv, requestTimeoutMs, maxRetries, retryBackoffMs,
    acceptInvalidCerts, compression, enableHighlighting, preflightPing, conversationsIndex,
    messagesIndex, logLevel, jsonLogs]

theorem mem_all (k : Setting) :
    k ∈ all := by
  cases k <;> decide

instance (p : Setting → Prop) [DecidablePred p] : Decidable (∀ k, p k) :=
  decidable_of_iff (∀ k ∈ all, p k) ⟨fun h k => h k (mem_all k), fun h k _ => h k⟩

/-- The section of a setting. -/
def part : Setting → String
  | host | httpPort => "server"
  | logLevel | jsonLogs => "observability"
  | _ => "index"

/-- The name of a setting within its section. -/
def name : Setting → String
  | host => "host"
  | httpPort => "http_port"
  | url => "url"
  | usernameEnv => "username_env"
  | passwordEnv => "password_env"
  | requestTimeoutMs => "request_timeout_ms"
  | maxRetries => "max_retries"
  | retryBackoffMs => "retry_backoff_ms"
  | acceptInvalidCerts => "accept_invalid_certs"
  | compression => "compression"
  | enableHighlighting => "enable_highlighting"
  | preflightPing => "preflight_ping"
  | conversationsIndex => "conversations_index"
  | messagesIndex => "messages_index"
  | logLevel => "log_level"
  | jsonLogs => "json_logs"

/-- The type of a setting. -/
abbrev Value : Setting → Type
  | host | url | conversationsIndex | messagesIndex | logLevel => String
  | usernameEnv | passwordEnv => Option String
  | httpPort => UInt16
  | maxRetries => UInt32
  | requestTimeoutMs | retryBackoffMs => UInt64
  | acceptInvalidCerts | compression | enableHighlighting | preflightPing | jsonLogs => Bool

/-- Turns what is held for a setting into its type. -/
def typed : (k : Setting) → Typed k.Value
  | host | url | conversationsIndex | messagesIndex | logLevel => Typed.text
  | usernameEnv | passwordEnv => Typed.text?
  | httpPort => Typed.uint16
  | maxRetries => Typed.uint32
  | requestTimeoutMs | retryBackoffMs => Typed.uint64
  | acceptInvalidCerts | compression | enableHighlighting | preflightPing | jsonLogs => Typed.truth

/-- The setting among all settings. -/
def get (s : Settings) : (k : Setting) → k.Value
  | host => s.server.host
  | httpPort => s.server.httpPort
  | url => s.index.url
  | usernameEnv => s.index.usernameEnv
  | passwordEnv => s.index.passwordEnv
  | requestTimeoutMs => s.index.requestTimeoutMs
  | maxRetries => s.index.maxRetries
  | retryBackoffMs => s.index.retryBackoffMs
  | acceptInvalidCerts => s.index.acceptInvalidCerts
  | compression => s.index.compression
  | enableHighlighting => s.index.enableHighlighting
  | preflightPing => s.index.preflightPing
  | conversationsIndex => s.index.conversationsIndex
  | messagesIndex => s.index.messagesIndex
  | logLevel => s.observability.logLevel
  | jsonLogs => s.observability.jsonLogs

/-- What is held for a setting turned into its type. A setting for which nothing is held has its
default, which for the names of the variables of the user and the password is that there is none. -/
def read (k : Setting) : Option Node → Except SettingsFault k.Value :=
  k.typed.orDefault (k.get {})

/-- What a root holds at the place of a setting. -/
def heldIn (k : Setting) (root : Node) : Option Node :=
  Node.member? k.name (Node.member? k.part (some root))

variable {k : Setting}

theorem name_injective {other : Setting} (h : k.name = other.name) :
    k = other := by
  cases k <;> cases other <;> first | rfl | exact absurd h (by decide)

theorem ofText_part (k : Setting) :
    PathStep.ofText k.part = [.key k.part] := by
  cases k <;> decide +kernel

theorem lower_part (k : Setting) :
    Text.lower k.part = k.part := by
  cases k <;> decide +kernel

theorem lower_name (k : Setting) :
    Text.lower k.name = k.name := by
  cases k <;> decide +kernel

/-- Neither a table nor a list is a setting. -/
theorem read_compound_ne_ok {node : Node} (h : node.IsTable ∨ Node.IsList (some node))
    (a : k.Value) :
    k.read (some node) ≠ .ok a := by
  rcases h with ⟨origin, members, rfl⟩ | ⟨origin, items, ⟨⟩⟩
  · cases k <;> rintro ⟨⟩
  · cases k <;> rintro ⟨⟩

/-- Where settings can be read, each is read of what is held at its place. -/
theorem read_heldIn {root : Node} {s : Settings} (hroot : root.IsTable)
    (hlist : ¬Node.IsList (Node.member? k.part (some root))) (hs : ofNode root = .ok s) :
    k.read (k.heldIn root) = .ok (k.get s) := by
  obtain ⟨origin, members, rfl⟩ := hroot
  obtain ⟨_, ⟨⟩, hserver, hindex, hobservability⟩ := ofNode_eq_ok_iff.mp hs
  have hserver := SectionParts.typed_getD_of_setting (by rfl) hserver
  have hindex := SectionParts.typed_getD_of_setting (by rfl) hindex
  have hobservability := SectionParts.typed_getD_of_setting (by rfl) hobservability
  have hheld : k.heldIn (.table origin members) =
      Node.member? k.name (some ((members.lookup k.part).getD Node.empty)) :=
    (Node.member?_getD_empty _ _).symm
  have hlist := Node.not_isList_getD_empty hlist
  rw [hheld]
  obtain ⟨serverParts, hserverParts, hhost, hport⟩ := ServerSettings.ofNode_eq_ok_iff.mp hserver
  obtain ⟨indexParts, hindexParts, hurl, huser, hpassword, htimeout, hretries, hbackoff, hcerts,
    hcompression, hhighlighting, hping, hconversations, hmessages⟩ :=
      IndexSettings.ofNode_eq_ok_iff.mp hindex
  obtain ⟨observabilityParts, hobservabilityParts, hlevel, hlogs⟩ :=
    ObservabilitySettings.ofNode_eq_ok_iff.mp hobservability
  cases k with
  | host => exact SectionParts.orDefault_of_setting hlist hserverParts hhost
  | httpPort => exact SectionParts.orDefault_of_setting hlist hserverParts hport
  | url => exact SectionParts.orDefault_of_setting hlist hindexParts hurl
  | usernameEnv => exact SectionParts.orDefault_of_setting hlist hindexParts huser
  | passwordEnv => exact SectionParts.orDefault_of_setting hlist hindexParts hpassword
  | requestTimeoutMs => exact SectionParts.orDefault_of_setting hlist hindexParts htimeout
  | maxRetries => exact SectionParts.orDefault_of_setting hlist hindexParts hretries
  | retryBackoffMs => exact SectionParts.orDefault_of_setting hlist hindexParts hbackoff
  | acceptInvalidCerts => exact SectionParts.orDefault_of_setting hlist hindexParts hcerts
  | compression => exact SectionParts.orDefault_of_setting hlist hindexParts hcompression
  | enableHighlighting => exact SectionParts.orDefault_of_setting hlist hindexParts hhighlighting
  | preflightPing => exact SectionParts.orDefault_of_setting hlist hindexParts hping
  | conversationsIndex =>
    exact SectionParts.orDefault_of_setting hlist hindexParts hconversations
  | messagesIndex => exact SectionParts.orDefault_of_setting hlist hindexParts hmessages
  | logLevel => exact SectionParts.orDefault_of_setting hlist hobservabilityParts hlevel
  | jsonLogs => exact SectionParts.orDefault_of_setting hlist hobservabilityParts hlogs

end Setting
end Settings
end ConversationSearch

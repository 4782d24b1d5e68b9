import ConversationSearch.Proofs.Failing
import ConversationSearch.Proofs.Settings.Layering
import ConversationSearch.Settings.Typed

/-!
# Reading sections

A section is read setting by setting, and it can be read exactly when each of its settings can. A
setting of a table is the value that is held for it, turned into its type, and its default where
nothing is held.
-/

namespace ConversationSearch

/-! ## Settings of a table -/

namespace SectionParts

variable {α : Type} {members : List (String × Node)} {key : String} {typed : Typed α} {node : Node}
  {default a : α}

theorem setting_of_missing (h : members.lookup key = none) (position : Nat) :
    (named members).setting position key typed default = .ok default := by
  simp [setting, find?, h]

theorem setting_of_held (h : members.lookup key = some node) (position : Nat) :
    (named members).setting position key typed default =
      (typed node).mapError (·.under key) := by
  simp [setting, find?, h]

theorem setting_congr {members' : List (String × Node)}
    (h : members'.lookup key = members.lookup key) (position : Nat) :
    (named members').setting position key typed default =
      (named members).setting position key typed default := by
  simp only [setting, find?, h]

theorem typed_of_setting {position : Nat} (hheld : members.lookup key = some node)
    (h : (named members).setting position key typed default = .ok a) :
    typed node = .ok a := by
  rw [setting_of_held hheld] at h
  exact mapError_eq_ok.mp h

theorem eq_of_setting {position : Nat} {found : α} (hheld : members.lookup key = some node)
    (hnode : typed node = .ok a)
    (h : (named members).setting position key typed default = .ok found) :
    found = a :=
  Except.ok.inj ((typed_of_setting hheld h).symm.trans hnode)

/-- A section that is not there is read as an empty table is. -/
theorem typed_getD_of_setting {position : Nat} (hempty : typed Node.empty = .ok default)
    (h : (named members).setting position key typed default = .ok a) :
    typed ((members.lookup key).getD Node.empty) = .ok a := by
  cases hheld : members.lookup key with
  | none =>
    rw [setting_of_missing hheld] at h
    obtain rfl := Except.ok.inj h
    exact hempty
  | some node => exact typed_of_setting hheld h

/-- A setting that can be read from a section can be read from a table that holds the same but for
one setting, if what the table holds for that one can be read. -/
theorem exists_setting {kind name : String} {source value : Node} {parts : SectionParts}
    {origin : Option String} {position : Nat} (hparts : ofNode kind source = .ok parts)
    (hsame : Node.SameBut name (some source) (some (.table origin members)))
    (hheld : members.lookup name = some value)
    (hvalue : key = name → ∃ b, typed value = .ok b)
    (h : parts.setting position key typed default = .ok a) :
    ∃ b, (named members).setting position key typed default = .ok b := by
  by_cases hkey : key = name
  · obtain ⟨b, hb⟩ := hvalue hkey
    rw [setting_of_held (hkey ▸ hheld)]
    exact ⟨b, mapError_eq_ok.mpr hb⟩
  · have hlookup : members.lookup key = Node.member? key (some source) := hsame key hkey
    cases source with
    | table origin' members' =>
      obtain rfl := Except.ok.inj hparts
      exact ⟨a, (setting_congr hlookup position).trans h⟩
    | list origin' items => exact ⟨_, setting_of_missing hlookup position⟩
    | scalar origin' s => contradiction
    | unset => contradiction

end SectionParts

/-! ## Sections setting by setting -/

variable {node : Node}

theorem ServerSettings.ofNode_eq_ok_iff {s : ServerSettings} :
    ServerSettings.ofNode node = .ok s ↔
      ∃ parts, SectionParts.ofNode "ServerConfig" node = .ok parts ∧
        parts.setting 0 "host" Typed.text (host {}) = .ok s.host ∧
        parts.setting 1 "http_port" Typed.uint16 (httpPort {}) = .ok s.httpPort := by
  simp only [ServerSettings.ofNode, bind_eq_ok]
  constructor
  · rintro ⟨parts, hparts, _, hhost, _, hport, h⟩
    obtain rfl := Except.ok.inj h
    exact ⟨parts, hparts, hhost, hport⟩
  · rintro ⟨parts, hparts, hhost, hport⟩
    exact ⟨parts, hparts, _, hhost, _, hport, rfl⟩

theorem IndexSettings.ofNode_eq_ok_iff {s : IndexSettings} :
    IndexSettings.ofNode node = .ok s ↔
      ∃ parts, SectionParts.ofNode "IndexConfig" node = .ok parts ∧
        parts.setting 0 "url" Typed.text (url {}) = .ok s.url ∧
        parts.setting 1 "username_env" Typed.text? none = .ok s.usernameEnv ∧
        parts.setting 2 "password_env" Typed.text? none = .ok s.passwordEnv ∧
        parts.setting 3 "request_timeout_ms" Typed.uint64 (requestTimeoutMs {}) =
          .ok s.requestTimeoutMs ∧
        parts.setting 4 "max_retries" Typed.uint32 (maxRetries {}) = .ok s.maxRetries ∧
        parts.setting 5 "retry_backoff_ms" Typed.uint64 (retryBackoffMs {}) =
          .ok s.retryBackoffMs ∧
        parts.setting 6 "accept_invalid_certs" Typed.truth (acceptInvalidCerts {}) =
          .ok s.acceptInvalidCerts ∧
        parts.setting 7 "compression" Typed.truth (compression {}) = .ok s.compression ∧
        parts.setting 8 "enable_highlighting" Typed.truth (enableHighlighting {}) =
          .ok s.enableHighlighting ∧
        parts.setting 9 "preflight_ping" Typed.truth (preflightPing {}) = .ok s.preflightPing ∧
        parts.setting 10 "conversations_index" Typed.text (conversationsIndex {}) =
          .ok s.conversationsIndex ∧
        parts.setting 11 "messages_index" Typed.text (messagesIndex {}) =
          .ok s.messagesIndex := by
  simp only [IndexSettings.ofNode, bind_eq_ok]
  constructor
  · rintro ⟨parts, hparts, _, hurl, _, huser, _, hpassword, _, htimeout, _, hretries, _, hbackoff,
      _, hcerts, _, hcompression, _, hhighlighting, _, hping, _, hconversations, _, hmessages, h⟩
    obtain rfl := Except.ok.inj h
    exact ⟨parts, hparts, hurl, huser, hpassword, htimeout, hretries, hbackoff, hcerts,
      hcompression, hhighlighting, hping, hconversations, hmessages⟩
  · rintro ⟨parts, hparts, hurl, huser, hpassword, htimeout, hretries, hbackoff, hcerts,
      hcompression, hhighlighting, hping, hconversations, hmessages⟩
    exact ⟨parts, hparts, _, hurl, _, huser, _, hpassword, _, htimeout, _, hretries, _, hbackoff,
      _, hcerts, _, hcompression, _, hhighlighting, _, hping, _, hconversations, _, hmessages, rfl⟩

theorem ObservabilitySettings.ofNode_eq_ok_iff {s : ObservabilitySettings} :
    ObservabilitySettings.ofNode node = .ok s ↔
      ∃ parts, SectionParts.ofNode "ObservabilityConfig" node = .ok parts ∧
        parts.setting 0 "log_level" Typed.text (logLevel {}) = .ok s.logLevel ∧
        parts.setting 1 "json_logs" Typed.truth (jsonLogs {}) = .ok s.jsonLogs := by
  simp only [ObservabilitySettings.ofNode, bind_eq_ok]
  constructor
  · rintro ⟨parts, hparts, _, hlevel, _, hlogs, h⟩
    obtain rfl := Except.ok.inj h
    exact ⟨parts, hparts, hlevel, hlogs⟩
  · rintro ⟨parts, hparts, hlevel, hlogs⟩
    exact ⟨parts, hparts, _, hlevel, _, hlogs, rfl⟩

theorem Settings.ofNode_eq_ok_iff {s : Settings} :
    Settings.ofNode node = .ok s ↔
      ∃ parts, SectionParts.ofNode "Config" node = .ok parts ∧
        parts.setting 0 "server" ServerSettings.ofNode {} = .ok s.server ∧
        parts.setting 1 "index" IndexSettings.ofNode {} = .ok s.index ∧
        parts.setting 2 "observability" ObservabilitySettings.ofNode {} = .ok s.observability := by
  simp only [Settings.ofNode, bind_eq_ok]
  constructor
  · rintro ⟨parts, hparts, _, hserver, _, hindex, _, hobservability, h⟩
    obtain rfl := Except.ok.inj h
    exact ⟨parts, hparts, hserver, hindex, hobservability⟩
  · rintro ⟨parts, hparts, hserver, hindex, hobservability⟩
    exact ⟨parts, hparts, _, hserver, _, hindex, _, hobservability, rfl⟩

end ConversationSearch

import ConversationSearch.Settings.Index

/-!
# Settings of the server

The settings of the server are those of its own address, of the connection to the engine, and of
what it logs.
-/

namespace ConversationSearch

open Json (Shape Decoder)

/-- Where the server listens. -/
structure ServerSettings where
  host : String := "0.0.0.0"
  httpPort : UInt16 := 8080
  deriving DecidableEq, Repr

namespace ServerSettings

/-- The members of the settings. -/
def shape : Shape ServerSettings :=
  ServerSettings.mk
    <$> .defaulted "host" Decoder.string (host {})
    <*> .defaulted "http_port" Decoder.uint16 (httpPort {})

/-- Reads the settings; what is left out has its default. -/
def decoder : Decoder ServerSettings :=
  shape.decoder "ServerConfig"

/-- The settings as a JSON value. -/
def toJson (s : ServerSettings) : Json :=
  .object [("host", .string s.host), ("http_port", .nat s.httpPort.toNat)]

end ServerSettings

/-- What the server logs. -/
structure ObservabilitySettings where
  logLevel : String := "info"
  jsonLogs : Bool := false
  deriving DecidableEq, Repr

namespace ObservabilitySettings

/-- The members of the settings. -/
def shape : Shape ObservabilitySettings :=
  ObservabilitySettings.mk
    <$> .defaulted "log_level" Decoder.string (logLevel {})
    <*> .defaulted "json_logs" Decoder.bool (jsonLogs {})

/-- Reads the settings; what is left out has its default. -/
def decoder : Decoder ObservabilitySettings :=
  shape.decoder "ObservabilityConfig"

/-- The settings as a JSON value. -/
def toJson (s : ObservabilitySettings) : Json :=
  .object [("json_logs", .bool s.jsonLogs), ("log_level", .string s.logLevel)]

end ObservabilitySettings

/-- All settings. -/
structure Settings where
  server : ServerSettings := {}
  index : IndexSettings := {}
  observability : ObservabilitySettings := {}
  deriving DecidableEq, Repr

namespace Settings

/-- The address on which the server listens. -/
def bindAddress (s : Settings) : String :=
  s.server.host ++ ":" ++ String.ofList (Text.digits s.server.httpPort.toNat)

/-- The members of the settings. -/
def shape : Shape Settings :=
  Settings.mk
    <$> .defaulted "server" ServerSettings.decoder {}
    <*> .defaulted "index" IndexSettings.decoder {}
    <*> .defaulted "observability" ObservabilitySettings.decoder {}

/-- Reads the settings; what is left out has its default. -/
def decoder : Decoder Settings :=
  shape.decoder "Config"

/-- The settings as a JSON value. -/
def toJson (s : Settings) : Json :=
  .object
    [("index", s.index.toJson),
     ("observability", s.observability.toJson),
     ("server", s.server.toJson)]

end Settings
end ConversationSearch

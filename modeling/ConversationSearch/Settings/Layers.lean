import ConversationSearch.Settings.Typed
import ConversationSearch.Toml.Document

/-!
# The layers of settings

The lowest layer are the defaults. Over them comes the file that the variable `CONFIG_PATH` names,
if there is one, and over that the variables whose names start with `THREADSEEK__`. The rest of
such a name, with `__` between its segments, is the path of the setting; letter case does not
count. The value of a variable is read as a truth value, an integer or a decimal where it looks
like one, and else taken as a text.
-/

namespace ConversationSearch

namespace Settings

/-- The defaults as a layer. -/
def defaultLayer : List (String × Node) :=
  [("server", .table none
     [("host", text "0.0.0.0"),
      ("http_port", int 8080)]),
   ("index", .table none
     [("url", text "http://localhost:9200"),
      ("request_timeout_ms", int 5000),
      ("max_retries", int 3),
      ("retry_backoff_ms", int 100),
      ("accept_invalid_certs", bool false),
      ("compression", bool true),
      ("enable_highlighting", bool true),
      ("preflight_ping", bool true),
      ("conversations_index", text "conversations"),
      ("messages_index", text "messages")]),
   ("observability", .table none
     [("log_level", text "info"),
      ("json_logs", bool false)])]
where
  text (s : String) : Node := .scalar none (.string s)
  int (n : Int) : Node := .scalar none (.int n)
  bool (b : Bool) : Node := .scalar none (.bool b)

/-- The start of the names of variables that hold settings, in small letters. -/
def variableStart : List Char :=
  "threadseek__".toList

/-- What remains of a text behind a start. -/
def dropStart? : List Char → List Char → Option (List Char)
  | [], rest => some rest
  | _ :: _, [] => none
  | s :: start, c :: rest => if s = c then dropStart? start rest else none

/-- A name with a point in place of each pair of underscores. -/
def dotted : List Char → List Char
  | '_' :: '_' :: rest => '.' :: dotted rest
  | c :: rest => c :: dotted rest
  | [] => []

/-- The path of the setting that a variable holds, if it holds one. -/
def variablePath? (name : String) : Option String :=
  (dropStart? variableStart (Text.lower name).toList).map fun rest => String.ofList (dotted rest)

/-- The value of a variable. -/
def variableScalar (value : String) : Scalar :=
  let word := Text.lower value
  if word = "true" then .bool true
  else if word = "false" then .bool false
  else
    match (Text.integer? value.toList).filter Text.fitsWord with
    | some n => .int n
    | none =>
      match Text.real? value.toList with
      | some d => .real d
      | none => .string value

/-- Where settings in variables come from. -/
def environmentOrigin : String :=
  "the environment"

/-- The variables that hold settings, as a layer. -/
def environmentLayer (env : Environment) : List (String × Node) :=
  env.filterMap fun entry =>
    (variablePath? entry.1).map (·, .scalar (some environmentOrigin) (variableScalar entry.2))

/-- A file of settings. -/
structure File where
  path : String
  content : String

mutual

/-- A value of a file. -/
def fileNode (path : String) : Toml → Node
  | .bool b => .scalar (some path) (.bool b)
  | .int n => .scalar (some path) (.int n)
  | .real d => .scalar (some path) (.real d)
  | .string s => .scalar (some path) (.string s)
  | .date s => .scalar (some path) (.string s)
  | .array items => .list (some path) (fileItems path items)
  | .table members => .table (some path) (fileMembers path members)

/-- Values of a file. -/
def fileItems (path : String) : List Toml → List Node
  | [] => []
  | item :: rest => fileNode path item :: fileItems path rest

/-- Entries of a file. -/
def fileMembers (path : String) : List (String × Toml) → List (String × Node)
  | [] => []
  | (key, value) :: rest => (key, fileNode path value) :: fileMembers path rest

end

/-- A file as a layer. -/
def fileLayer (file : Option File) : Except SettingsFault (List (String × Node)) :=
  match file with
  | none => .ok []
  | some f =>
    match Toml.parse f.content with
    | some members => .ok (fileMembers f.path members)
    | none => .error (.malformedFile f.path)

/-- The settings of a file, if there is one, and an environment. -/
def load (file : Option File) (env : Environment) : Except SettingsFault Settings := do
  let fromFile ← fileLayer file
  let root := ((Node.empty.overlay defaultLayer).overlay fromFile).overlay (environmentLayer env)
  if Node.empty.hasPlaces (defaultLayer ++ fromFile ++ environmentLayer env) then
    Settings.ofNode root
  else
    .error .noItem

end Settings
end ConversationSearch

import ConversationSearch.Settings.Node
import ConversationSearch.Text.Shown

/-!
# Why settings cannot be used

A value that cannot be turned into its setting is named by its path and its origin. A section that
is neither a table nor a list is reported without either. A position that lies before the first item
of its list is not reported as other faults are: it ends the program with the arithmetic that fails.
-/

namespace ConversationSearch

/-- What was found in place of a setting. -/
inductive Seen
  | nothing
  | bool (value : Bool)
  | int (value : Int)
  | natural (value : Nat)
  | real (value : Json.Double)
  | string (text : String)
  | list
  | table
  deriving DecidableEq, Repr

namespace Seen

/-- What a value is. -/
def ofNode : Node → Seen
  | .unset => .nothing
  | .scalar _ (.bool b) => .bool b
  | .scalar _ (.int n) => .int n
  | .scalar _ (.real d) => .real d
  | .scalar _ (.string s) => .string s
  | .list _ _ => .list
  | .table _ _ => .table

/-- A word in backquotes behind its kind. -/
def quoted (kind : String) (word : List Char) : String :=
  kind ++ " `" ++ String.ofList word ++ "`"

/-- The wording of a truth value. -/
def boolText (b : Bool) : String :=
  if b then "true" else "false"

/-- The wording of what was found in place of a single setting. -/
def message : Seen → String
  | .nothing => "unit value"
  | .bool b => quoted "boolean" (boolText b).toList
  | .int n => quoted "64-bit integer" (Text.integer n)
  | .natural n => quoted "64-bit unsigned integer" (Text.digits n)
  | .real d => quoted "floating point" d.plainText
  | .string s => "string " ++ Text.shown s
  | .list => "sequence"
  | .table => "map"

/-- A double with at least one place behind the point. -/
def pointedText (d : Json.Double) : List Char :=
  if d.isFinite && !d.plainText.contains '.' then d.plainText ++ ['.', '0'] else d.plainText

/-- The wording of what was found in place of a section. -/
def sectionMessage : Seen → String
  | .int n => quoted "integer" (Text.integer n)
  | .natural n => quoted "integer" (Text.digits n)
  | .real d => quoted "floating point" (pointedText d)
  | seen => seen.message

end Seen

/-- Why settings cannot be used. -/
inductive SettingsFault
  /-- A value is not what its setting has to be. -/
  | unusable (seen : Seen) (expected key : String) (origin : Option String)
  /-- A value stands where a section should be. -/
  | notSection (seen : Seen) (expected : String)
  /-- A file is not in its format. -/
  | malformedFile (path : String)
  /-- A position lies before the first item of its list. -/
  | noItem
  deriving DecidableEq, Repr

namespace SettingsFault

/-- The wording of a fault. -/
def message : SettingsFault → String
  | .unusable seen expected key origin =>
    "invalid type: " ++ seen.message ++ ", expected " ++ expected ++ " for key `" ++ key ++ "`" ++
      (match origin with
        | none => ""
        | some origin => " in " ++ origin)
  | .notSection seen expected =>
    "invalid type: " ++ seen.sectionMessage ++ ", expected " ++ expected
  | .malformedFile path => "TOML parse error in " ++ path
  | .noItem => "attempt to subtract with overflow"

/-- The fault of a part as a fault of the whole: its key is longer by a segment. -/
def under (segment : String) : SettingsFault → SettingsFault
  | .unusable seen expected key origin =>
    let separator := if key.isEmpty || key.startsWith "[" then "" else "."
    .unusable seen expected (segment ++ separator ++ key)
      origin
  | fault => fault

end SettingsFault
end ConversationSearch

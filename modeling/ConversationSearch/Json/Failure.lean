import ConversationSearch.Json.Reading
import ConversationSearch.Text.Shown

/-!
# Why a value is not of the expected kind

A failure names a place, as the steps that lead to it from the outermost value, and a cause. The
causes are those of decoding in general; a text that a field's own reader refuses is reported in
that reader's words.
-/

namespace ConversationSearch.Json

/-- What was found. -/
inductive Found
  | null
  | bool (value : Bool)
  | int (value : Int)
  | real (value : Double)
  | string (text : String)
  | array
  | object
  deriving DecidableEq, Repr

/-- The wording of what was found. -/
def Found.message : Found → String
  | .null => "null"
  | .bool b => "boolean `" ++ (if b then "true" else "false") ++ "`"
  | .int n => "integer `" ++ String.ofList (Text.integer n) ++ "`"
  | .real d => "floating point `" ++ String.ofList d.text ++ "`"
  | .string s => "string " ++ Text.shown s
  | .array => "sequence"
  | .object => "map"

/-- A step from a value to a part of it. -/
inductive Step
  | member (key : String)
  | item (index : Nat)
  | content (variant : String)
  deriving DecidableEq, Repr

/-- The wording of a path: names with dots between them, positions in brackets. -/
def pathMessage : List Step → String
  | [] => ""
  | step :: rest => wording step ++ rest.foldl (fun acc s => acc ++ separator s ++ wording s) ""
where
  wording : Step → String
    | .member key => key
    | .item index => "[" ++ String.ofList (Text.digits index) ++ "]"
    | .content variant => variant
  separator : Step → String
    | .item _ => ""
    | _ => "."

/-- Why a reading does not decode. -/
inductive Cause
  /-- The text cannot be read up to where the value was wanted. -/
  | unreadable (fault : Fault)
  /-- Another kind of value was expected. -/
  | wrongType (found : Found) (expected : String)
  /-- The value is of the right kind but not one that is allowed. -/
  | wrongValue (found : Found) (expected : String)
  /-- An array has the wrong number of items. -/
  | wrongLength (count : Nat) (expected : String)
  /-- The name is none of those that are known. -/
  | unknownVariant (name : String) (known : List String)
  /-- A member is missing. -/
  | missingField (name : String)
  /-- A member is given twice. -/
  | duplicateField (name : String)
  /-- The value is of none of the kinds that are possible. -/
  | unmatched (kind : String)
  /-- A field's own reader refuses the value. -/
  | refused (reason : String)
  deriving DecidableEq, Repr

/-- Names in backquotes, as the alternatives of a choice. -/
def alternatives : List String → String
  | [] => "there are no variants"
  | [a] => "expected `" ++ a ++ "`"
  | [a, b] => "expected `" ++ a ++ "` or `" ++ b ++ "`"
  | a :: rest =>
    "expected one of `" ++ a ++ "`" ++ rest.foldl (fun acc s => acc ++ ", `" ++ s ++ "`") ""

/-- The wording of a cause. -/
def Cause.message : Cause → String
  | .unreadable fault => fault.message
  | .wrongType found expected => "invalid type: " ++ found.message ++ ", expected " ++ expected
  | .wrongValue found expected => "invalid value: " ++ found.message ++ ", expected " ++ expected
  | .wrongLength count expected =>
    "invalid length " ++ String.ofList (Text.digits count) ++ ", expected " ++ expected
  | .unknownVariant name known => "unknown variant `" ++ name ++ "`, " ++ alternatives known
  | .missingField name => "missing field `" ++ name ++ "`"
  | .duplicateField name => "duplicate field `" ++ name ++ "`"
  | .unmatched kind => "data did not match any variant of untagged enum " ++ kind
  | .refused reason => reason

/-- A cause and the place where it arose. -/
structure Failure where
  path : List Step
  cause : Cause
  deriving DecidableEq, Repr

namespace Failure

/-- A failure of the whole value. -/
def of (cause : Cause) : Failure :=
  ⟨[], cause⟩

/-- A failure inside a part of the value. -/
def under (step : Step) (f : Failure) : Failure :=
  ⟨step :: f.path, f.cause⟩

/-- The wording of a failure, without its place. -/
def message (f : Failure) : String :=
  f.cause.message

/-- The wording of a failure with its place in front. -/
def placedMessage (f : Failure) : String :=
  if f.path.isEmpty then f.message else pathMessage f.path ++ ": " ++ f.message

/-- Whether the text itself is at fault. -/
def isUnreadable (f : Failure) : Bool :=
  match f.cause with
  | .unreadable _ => true
  | _ => false

end Failure
end ConversationSearch.Json

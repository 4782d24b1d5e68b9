import ConversationSearch.Json.Basic
import ConversationSearch.Text.Decimal
import ConversationSearch.Text.LowerCase

/-!
# Layers of settings

Settings come in layers: the defaults, a file, the environment. A layer is a list of entries, each
a value and the path at which it belongs. `Node.put` lays an entry over what is there: a table is
merged member by member, and any other value takes the place of the one before. What stands in the
way of a path gives way to a table or a list. Names are compared in small letters. A position in a
list can be counted from its end, and then the item has to be there (`Node.hasPlace`).
-/

namespace ConversationSearch

/-- A value that is not made of others. -/
inductive Scalar
  | bool (value : Bool)
  | int (value : Int)
  | real (value : Json.Double)
  | string (text : String)
  deriving DecidableEq, Repr

/-- A value as a layer gives it. Its origin is named where it has one. -/
inductive Node
  | unset
  | scalar (origin : Option String) (value : Scalar)
  | list (origin : Option String) (items : List Node)
  | table (origin : Option String) (members : List (String × Node))
  deriving Repr, Inhabited

/-- A step from a value to a part of it. A position below zero is counted from the end. -/
inductive PathStep
  | key (name : String)
  | position (index : Int)
  deriving DecidableEq, Repr

namespace PathStep

/-- The characters of a name in a path. -/
def isNameChar (c : Char) : Bool :=
  c.isAlphanum || c == ' ' || c == '_' || c == '-'

/-- A name at the front of a path. -/
def takeName (cs : List Char) : Option (String × List Char) :=
  match cs.takeWhile isNameChar with
  | [] => none
  | name => some (String.ofList name, cs.dropWhile isNameChar)

/-- Whether a character may stand around a position. -/
def isPad (c : Char) : Bool :=
  c == ' ' || c == '\t'

/-- The characters of a position in a path. -/
def isPositionChar (c : Char) : Bool :=
  c == '-' || Text.isDigit c

/-- A position at the front of a path, its opening bracket being taken already. -/
def takePosition (cs : List Char) : Option (Int × List Char) :=
  let cs := cs.dropWhile isPad
  match (cs.dropWhile isPositionChar).dropWhile isPad with
  | ']' :: rest =>
    ((Text.integer? (cs.takeWhile isPositionChar)).filter Text.fitsWord).map (·, rest)
  | _ => none

/-- The steps behind the first name, each either a dot and a name or a position in brackets. The
supply is lowered by each step. -/
def readSteps : (supply : Nat) → List Char → Option (List PathStep)
  | _, [] => some []
  | 0, _ => none
  | supply + 1, '.' :: cs => do
    let (name, rest) ← takeName cs
    return .key name :: (← readSteps supply rest)
  | supply + 1, '[' :: cs => do
    let (index, rest) ← takePosition cs
    return .position index :: (← readSteps supply rest)
  | _, _ => none

/-- The steps of a path; a text that is no path is taken as a single name. -/
def ofText (s : String) : List PathStep :=
  match takeName s.toList with
  | none => [.key s]
  | some (name, rest) =>
    match readSteps rest.length rest with
    | none => [.key s]
    | some steps => .key name :: steps

end PathStep

namespace Node

/-- The origin and the members of a table; any other value has none. -/
def tableParts : Option Node → Option String × List (String × Node)
  | some (.table origin members) => (origin, members)
  | _ => (none, [])

/-- The origin and the items of a list; any other value has none. -/
def listParts : Option Node → Option String × List Node
  | some (.list origin items) => (origin, items)
  | _ => (none, [])

mutual

/-- Lays a value over what is there. -/
def merge (existing : Option Node) : Node → Node
  | .table _ members => mergeMembers (existing.getD (.table none [])) members
  | value => value

/-- Lays members over what is there. -/
def mergeMembers (target : Node) : List (String × Node) → Node
  | [] => target
  | (key, value) :: rest =>
    let (origin, members) := tableParts (some target)
    let name := Text.lower key
    mergeMembers
      (.table origin (Json.insert name (merge (members.lookup name) value) members)) rest

end

/-- The list with the item at a position replaced, which makes it longer if need be. -/
def setAt (value : Node) : Nat → List Node → List Node
  | 0, [] => [value]
  | 0, _ :: rest => value :: rest
  | n + 1, [] => .unset :: setAt value n []
  | n + 1, item :: rest => item :: setAt value n rest

/-- The item that a position means in a list of this length. An item behind the last one is not
there yet; before the first one there is none. -/
def slot? (length : Nat) : Int → Option Nat
  | .ofNat n => some n
  | .negSucc n => if n < length then some (length - (n + 1)) else none

/-- Lays a value over what is there at a path. An item of a list is not merged but replaced. -/
def put (value : Node) : List PathStep → Option Node → Node
  | [], existing => merge existing value
  | .key key :: steps, existing =>
    let (origin, members) := tableParts existing
    let name := Text.lower key
    .table origin (Json.insert name (put value steps (members.lookup name)) members)
  | .position index :: steps, existing =>
    let (origin, items) := listParts existing
    let slot := (slot? items.length index).getD 0
    let item := if steps.isEmpty then value else put value steps items[slot]?
    .list origin (setAt item slot items)

/-- Whether every position of a path is that of an item. -/
def hasPlace : List PathStep → Option Node → Bool
  | [], _ => true
  | .key key :: steps, existing =>
    hasPlace steps ((tableParts existing).2.lookup (Text.lower key))
  | .position index :: steps, existing =>
    let items := (listParts existing).2
    match slot? items.length index with
    | none => false
    | some slot => hasPlace steps items[slot]?

/-- Lays the entries of a layer over what is there, one after the other. -/
def overlay (root : Node) (layer : List (String × Node)) : Node :=
  layer.foldl (fun node entry => put entry.2 (PathStep.ofText entry.1) (some node)) root

/-- Whether every entry of a layer has its place once those before it are laid over what is there. -/
def hasPlaces (root : Node) : List (String × Node) → Bool
  | [] => true
  | (path, value) :: layer =>
    let steps := PathStep.ofText path
    hasPlace steps (some root) && hasPlaces (put value steps (some root)) layer

/-- Nothing is set. -/
def empty : Node :=
  .table none []

end Node
end ConversationSearch

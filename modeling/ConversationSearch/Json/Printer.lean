import ConversationSearch.Json.Quoted

/-!
# Writing JSON texts

A value is written without blanks, or over several lines with two blanks for each level. Members
are written in the order in which the value holds them.
-/

namespace ConversationSearch.Json

/-- The text of a number. -/
def Number.text : Number → List Char
  | .int n => Text.integer n
  | .real d => d.text

mutual

/-- A value without blanks. -/
def compactChars : Json → List Char
  | .null => "null".toList
  | .bool true => "true".toList
  | .bool false => "false".toList
  | .number n => n.text
  | .string s => Quoted.encode s
  | .array items => '[' :: compactItems items ++ [']']
  | .object members => '{' :: compactMembers members ++ ['}']

/-- Items with commas between them. -/
def compactItems : List Json → List Char
  | [] => []
  | [item] => compactChars item
  | item :: rest => compactChars item ++ ',' :: compactItems rest

/-- Members with commas between them. -/
def compactMembers : List (String × Json) → List Char
  | [] => []
  | [(key, value)] => Quoted.encode key ++ ':' :: compactChars value
  | (key, value) :: rest =>
    Quoted.encode key ++ ':' :: compactChars value ++ ',' :: compactMembers rest

end

/-- The text of a value without blanks. -/
def compact (j : Json) : String :=
  String.ofList j.compactChars

/-- A line break and the blanks of a level. -/
def lineBreak (level : Nat) : List Char :=
  '\n' :: List.replicate (2 * level) ' '

mutual

/-- A value over several lines; an array or object without content stays on one. -/
def prettyChars (level : Nat) : Json → List Char
  | .array [] => "[]".toList
  | .array items => '[' :: prettyItems (level + 1) items ++ lineBreak level ++ [']']
  | .object [] => ['{', '}']
  | .object members => '{' :: prettyMembers (level + 1) members ++ lineBreak level ++ ['}']
  | .null => "null".toList
  | .bool true => "true".toList
  | .bool false => "false".toList
  | .number n => n.text
  | .string s => Quoted.encode s

/-- Items, each on a line of its own. -/
def prettyItems (level : Nat) : List Json → List Char
  | [] => []
  | [item] => lineBreak level ++ prettyChars level item
  | item :: rest => lineBreak level ++ prettyChars level item ++ ',' :: prettyItems level rest

/-- Members, each on a line of its own. -/
def prettyMembers (level : Nat) : List (String × Json) → List Char
  | [] => []
  | [(key, value)] => lineBreak level ++ Quoted.encode key ++ ':' :: ' ' :: prettyChars level value
  | (key, value) :: rest =>
    lineBreak level ++ Quoted.encode key ++ ':' :: ' ' :: prettyChars level value ++
      ',' :: prettyMembers level rest

end

/-- The text of a value over several lines. -/
def pretty (j : Json) : String :=
  String.ofList (j.prettyChars 0)

end ConversationSearch.Json

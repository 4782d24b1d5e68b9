import ConversationSearch.Toml.Quoted
import ConversationSearch.Toml.Scalar

/-!
# TOML documents

A document is a sequence of lines: entries, each a key and a value, and headers that say to which
table the entries after them belong. A table is opened by one header at most, a key is given once,
and a value that is written in place is closed: nothing can be added to it later.

While a document is read, a `Draft` records of each table how it came to be, which decides what
may still be added to it.
-/

namespace ConversationSearch.Toml

/-- Whether a character separates the parts of a line. -/
def isSpace (c : Char) : Bool :=
  c == ' ' || c == '\t'

/-- Drops blanks within a line. -/
def skipSpace (cs : List Char) : List Char :=
  cs.dropWhile isSpace

/-- Whether a character may stand in a key without quotes. -/
def isKeyChar (c : Char) : Bool :=
  c.isAlphanum || c == '_' || c == '-'

/-- One segment of a key. -/
def takeSegment (cs : List Char) : Option (String × List Char) :=
  match cs.takeWhile isKeyChar with
  | [] => takeQuoted false cs
  | name => some (String.ofList name, cs.dropWhile isKeyChar)

/-- A key with blanks after it: segments with dots between them. -/
def takeKey : (supply : Nat) → List Char → Option (List String × List Char)
  | 0, _ => none
  | supply + 1, cs => do
    let (segment, rest) ← takeSegment (skipSpace cs)
    match skipSpace rest with
    | '.' :: rest => do
      let (segments, rest) ← takeKey supply rest
      return (segment :: segments, rest)
    | rest => return ([segment], rest)

/-- A comment at the front; it goes to the end of the line. -/
def skipComment : List Char → Option (List Char)
  | '#' :: rest =>
    let rest := rest.dropWhile isTextChar
    if rest.isEmpty || (takeNewline rest).isSome then some rest else none
  | rest => some rest

/-- Drops blanks, comments and line breaks. -/
def skipLayout : (supply : Nat) → List Char → Option (List Char)
  | 0, cs => some cs
  | supply + 1, cs => do
    let rest ← skipComment (skipSpace cs)
    match takeNewline rest with
    | some rest => skipLayout supply rest
    | none => return rest

/-- How a table came to be. -/
inductive Origin
  /-- It stands above a table that has a header. -/
  | above
  /-- It has a header. -/
  | header
  /-- It stands above an entry with a dotted key. -/
  | dotted
  deriving DecidableEq, Repr

/-- A document in the making. -/
inductive Draft
  /-- A value that is closed. -/
  | value (v : Toml)
  | table (origin : Origin) (members : List (String × Draft))
  /-- Tables of one name, the latest first. -/
  | tables (items : List (List (String × Draft)))
  deriving Inhabited

namespace Draft

mutual

/-- The value that a draft has become. -/
def toToml : Draft → Toml
  | .value v => v
  | .table _ members => .table (membersToToml members)
  | .tables items => .array (itemsToToml items).reverse

/-- The values of members. -/
def membersToToml : List (String × Draft) → List (String × Toml)
  | [] => []
  | (key, d) :: rest => (key, toToml d) :: membersToToml rest

/-- The values of tables of one name. -/
def itemsToToml : List (List (String × Draft)) → List Toml
  | [] => []
  | members :: rest => .table (membersToToml members) :: itemsToToml rest

end

/-- Puts a member in the place of the one with its key, or behind all others. -/
def setMember (key : String) (d : Draft) : List (String × Draft) → List (String × Draft)
  | [] => [(key, d)]
  | (k, e) :: rest => if k = key then (key, d) :: rest else (k, e) :: setMember key d rest

/-- Adds an entry to the members of a table; it counts whether that table is above a dotted key. -/
def addEntry (v : Toml) : (isDotted : Bool) → List String → List (String × Draft) →
    Option (List (String × Draft))
  | _, [], _ => none
  | _, [key], members =>
    match members.lookup key with
    | none => some (members ++ [(key, .value v)])
    | some _ => none
  | _, key :: segments, members =>
    match members.lookup key with
    | none => do
      let inner ← addEntry v true segments []
      return setMember key (.table .dotted inner) members
    | some (.table origin inner) =>
      if origin = .header ∨ (segments.length = 1 ∧ origin ≠ .dotted) then none
      else do
        let inner ← addEntry v true segments inner
        return setMember key (.table origin inner) members
    | some (.tables (last :: earlier)) =>
      if segments.length = 1 then none
      else do
        let last ← addEntry v true segments last
        return setMember key (.tables (last :: earlier)) members
    | some _ => none

/-- Opens the table of a header. -/
def openTable : List String → List (String × Draft) → Option (List (String × Draft))
  | [], _ => none
  | [key], members =>
    match members.lookup key with
    | none => some (members ++ [(key, .table .header [])])
    | some (.table .above inner) => some (setMember key (.table .header inner) members)
    | some _ => none
  | key :: segments, members =>
    match members.lookup key with
    | none => do
      let inner ← openTable segments []
      return setMember key (.table .above inner) members
    | some (.table origin inner) => do
      let inner ← openTable segments inner
      return setMember key (.table origin inner) members
    | some (.tables (last :: earlier)) => do
      let last ← openTable segments last
      return setMember key (.tables (last :: earlier)) members
    | some _ => none

/-- Opens a further table of one name. -/
def openItem : List String → List (String × Draft) → Option (List (String × Draft))
  | [], _ => none
  | [key], members =>
    match members.lookup key with
    | none => some (members ++ [(key, .tables [[]])])
    | some (.tables items) => some (setMember key (.tables ([] :: items)) members)
    | some _ => none
  | key :: segments, members =>
    match members.lookup key with
    | none => do
      let inner ← openItem segments []
      return setMember key (.table .above inner) members
    | some (.table origin inner) => do
      let inner ← openItem segments inner
      return setMember key (.table origin inner) members
    | some (.tables (last :: earlier)) => do
      let last ← openItem segments last
      return setMember key (.tables (last :: earlier)) members
    | some _ => none

/-- Adds an entry to the table at a place. -/
def addAt (key : List String) (v : Toml) : List String → List (String × Draft) →
    Option (List (String × Draft))
  | [], members => addEntry v false key members
  | segment :: place, members =>
    match members.lookup segment with
    | some (.table origin inner) => do
      let inner ← addAt key v place inner
      return setMember segment (.table origin inner) members
    | some (.tables (last :: earlier)) => do
      let last ← addAt key v place last
      return setMember segment (.tables (last :: earlier)) members
    | _ => none

end Draft

/-- Values inside this many others are too deep to be read. -/
def maxDepth : Nat := 80

mutual

/-- A value at the front. The supply is lowered by each step, the depth by each level. -/
def takeValue : (supply depth : Nat) → List Char → Option (Toml × List Char)
  | 0, _, _ => none
  | supply + 1, depth, cs =>
    match cs with
    | '"' :: _ => (takeQuoted true cs).map fun r => (.string r.1, r.2)
    | '\'' :: _ => (takeQuoted true cs).map fun r => (.string r.1, r.2)
    | '[' :: rest =>
      match depth with
      | 0 => none
      | depth + 1 => do
        let (items, rest) ← takeItems supply depth rest
        return (.array items, rest)
    | '{' :: rest =>
      match depth with
      | 0 => none
      | depth + 1 => do
        let (members, rest) ← match skipSpace rest with
          | '}' :: rest => some ([], rest)
          | rest => takeMembers supply depth rest []
        return ((Draft.table .header members).toToml, rest)
    | cs =>
      let (word, rest) := takeWord cs
      (ofWord word).map (·, rest)

/-- The items of an array and its closing bracket. -/
def takeItems : (supply depth : Nat) → List Char → Option (List Toml × List Char)
  | 0, _, _ => none
  | supply + 1, depth, cs => do
    match ← skipLayout cs.length cs with
    | ']' :: rest => return ([], rest)
    | cs =>
      let (item, rest) ← takeValue supply depth cs
      match ← skipLayout rest.length rest with
      | ']' :: rest => return ([item], rest)
      | ',' :: rest =>
        let (items, rest) ← takeItems supply depth rest
        return (item :: items, rest)
      | _ => none

/-- The members of a table written in place and its closing brace. -/
def takeMembers : (supply depth : Nat) → List Char → List (String × Draft) →
    Option (List (String × Draft) × List Char)
  | 0, _, _, _ => none
  | supply + 1, depth, cs, members => do
    let (key, rest) ← takeKey cs.length cs
    match rest with
    | '=' :: rest =>
      let (v, rest) ← takeValue supply depth (skipSpace rest)
      let members ← Draft.addEntry v false key members
      match skipSpace rest with
      | '}' :: rest => return (members, rest)
      | ',' :: rest => takeMembers supply depth rest members
      | _ => none
    | _ => none

end

/-- A document up to some line: its tables, and the place of the table that is open. -/
structure Progress where
  members : List (String × Draft) := []
  place : List String := []

/-- The name in a header, its opening brackets being taken already. -/
def takeHeader (closing : List Char) (cs : List Char) : Option (List String × List Char) := do
  let (key, rest) ← takeKey cs.length cs
  if rest.take closing.length = closing then return (key, rest.drop closing.length) else none

/-- What a line says, and what follows it on the line. -/
def readLine (p : Progress) (cs : List Char) : Option (Progress × List Char) :=
  match cs with
  | '[' :: '[' :: rest => do
    let (key, rest) ← takeHeader [']', ']'] rest
    let members ← Draft.openItem key p.members
    return (⟨members, key⟩, rest)
  | '[' :: rest => do
    let (key, rest) ← takeHeader [']'] rest
    let members ← Draft.openTable key p.members
    return (⟨members, key⟩, rest)
  | cs => do
    let (key, rest) ← takeKey cs.length cs
    match rest with
    | '=' :: rest => do
      let (v, rest) ← takeValue (2 * rest.length + 2) maxDepth (skipSpace rest)
      let members ← Draft.addAt key v p.place p.members
      return (⟨members, p.place⟩, rest)
    | _ => none

/-- The lines of a document. Each step takes a line, so the supply never runs out before the text
does. -/
def readLines : (supply : Nat) → Progress → List Char → Option Progress
  | 0, _, _ => none
  | supply + 1, p, cs => do
    match ← skipLayout cs.length cs with
    | [] => return p
    | cs => do
      let (p, rest) ← readLine p cs
      let rest ← skipComment (skipSpace rest)
      match rest with
      | [] => return p
      | rest => do
        let rest ← takeNewline rest
        readLines supply p rest

/-- The tables of a document. -/
def parse (s : String) : Option (List (String × Toml)) :=
  let cs := match s.toList with
    | '\uFEFF' :: rest => rest
    | cs => cs
  (readLines (cs.length + 1) {} cs).map fun p => Draft.membersToToml p.members

end ConversationSearch.Toml

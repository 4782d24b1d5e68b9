import ConversationSearch.Json.Numeral
import ConversationSearch.Json.Quoted

/-!
# Reading JSON texts

`read` takes a value off the front of a text and gives its reading together with what follows it,
or with nothing when the text broke off. `parse` reads a whole text as one value.

The reader walks down the text with a supply that every step lowers; the length of the text, with
one to spare, always suffices, because each step takes at least one character.
-/

namespace ConversationSearch.Json

/-- The blanks between the parts of a JSON text. -/
def isSpace (c : Char) : Bool :=
  c == ' ' || c == '\n' || c == '\t' || c == '\r'

/-- Drops blanks. -/
def skipSpace (cs : List Char) : List Char :=
  cs.dropWhile isSpace

namespace Reading

/-- Arrays and objects inside this many others are too deep to be read. -/
def maxDepth : Nat := 127

/-- What a reader returns: the reading and, unless the text broke off, what follows. -/
abbrev Front := Reading × Option (List Char)

/-- A text that breaks off at the front. -/
def breakOff (fault : Fault) (opening : Opening) : Front :=
  (.broken (.of fault) opening, none)

/-- A container at the given depth; one that is too deep can only be skipped. -/
def atDepth (depth : Nat) (r : Reading) : Reading :=
  if maxDepth ≤ depth then .rejected .tooDeep r else r

/-- The rest of a word whose first letter is already taken. -/
def readWord (word : List Char) (value : Reading) (opening : Opening) (cs : List Char) : Front :=
  match word, cs with
  | [], rest => (value, some rest)
  | _ :: _, [] => breakOff .eofValue opening
  | w :: ws, c :: cs => if w = c then readWord ws value opening cs
      else breakOff .expectedWord opening

/-- A number whose sign is already taken. -/
def readNumber (negative : Bool) (cs : List Char) : Front :=
  match Numeral.scan negative cs with
  | .error place => (.broken place .other, none)
  | .ok (numeral, rest) =>
    match numeral.value with
    | .ok n => (.number n, some rest)
    | .error fault => (.rejected fault .null, some rest)

/-- A string whose opening quote is already taken. -/
def readString (cs : List Char) : Front :=
  match Quoted.scan cs with
  | .closed text rest => (.string (String.ofList text), some rest)
  | .rejected fault rest => (.rejected fault (.string ""), some rest)
  | .broken place => (.broken place .quote, none)

mutual

/-- The value at the front of a text without blanks before it. -/
def readValue : (supply depth : Nat) → List Char → Front
  | 0, _, _ => breakOff .expectedValue .other
  | _ + 1, _, [] => breakOff .eofValue .nothing
  | supply + 1, depth, c :: cs =>
    match c with
    | 'n' => readWord ['u', 'l', 'l'] .null .letterN cs
    | 't' => readWord ['r', 'u', 'e'] (.bool true) .other cs
    | 'f' => readWord ['a', 'l', 's', 'e'] (.bool false) .other cs
    | '"' => readString cs
    | '-' => readNumber true cs
    | '[' =>
      let (items, close, rest) := readItems supply (depth + 1) true (skipSpace cs)
      (atDepth depth (.array items close), rest)
    | '{' =>
      let (members, close, rest) := readMembers supply (depth + 1) true (skipSpace cs)
      (atDepth depth (.object members close), rest)
    | c => if Text.isDigit c then readNumber false (c :: cs) else breakOff .expectedValue .other

/-- The items of an array up to its end; before the first one no comma stands. -/
def readItems : (supply depth : Nat) → (isFirst : Bool) → List Char →
    List Reading × Option Break × Option (List Char)
  | 0, _, _, _ => ([], some (.of .eofArray), none)
  | _ + 1, _, _, [] => ([], some (.of .eofArray), none)
  | supply + 1, depth, isFirst, c :: cs =>
    if c = ']' then ([], none, some cs)
    else if isFirst then readItem supply depth (c :: cs)
    else if c = ',' then
      match skipSpace cs with
      | ']' :: _ => ([], some ⟨.trailingComma, .expectedValue⟩, none)
      | [] => ([], some (.of .eofValue), none)
      | cs => readItem supply depth cs
    else ([], some (.of .expectedArrayEnd), none)

/-- An item of an array and those behind it. -/
def readItem : (supply depth : Nat) → List Char →
    List Reading × Option Break × Option (List Char)
  | 0, _, _ => ([], some (.of .eofArray), none)
  | supply + 1, depth, cs =>
    match readValue supply depth cs with
    | (item, none) => ([item], none, none)
    | (item, some rest) =>
      let (items, close, rest) := readItems supply depth false (skipSpace rest)
      (item :: items, close, rest)

/-- The members of an object up to its end; before the first one no comma stands. -/
def readMembers : (supply depth : Nat) → (isFirst : Bool) → List Char →
    List (Reading × Reading) × Option Break × Option (List Char)
  | 0, _, _, _ => ([], some (.of .eofObject), none)
  | _ + 1, _, _, [] => ([], some (.of .eofObject), none)
  | supply + 1, depth, isFirst, c :: cs =>
    if c = '}' then ([], none, some cs)
    else if isFirst then readMember supply depth (c :: cs)
    else if c = ',' then
      match skipSpace cs with
      | '}' :: _ => ([], some ⟨.trailingComma, .keyNotString⟩, none)
      | [] => ([], some ⟨.eofValue, .eofObject⟩, none)
      | cs => readMember supply depth cs
    else ([], some (.of .expectedObjectEnd), none)

/-- A member of an object and those behind it. -/
def readMember : (supply depth : Nat) → List Char →
    List (Reading × Reading) × Option Break × Option (List Char)
  | 0, _, _ => ([], some (.of .eofObject), none)
  | supply + 1, depth, cs =>
    let (key, rest) := match cs with
      | '"' :: cs => readString cs
      | cs => ((readValue supply depth cs).1, none)
    match rest with
    | none => ([(key, .null)], none, none)
    | some rest =>
      match skipSpace rest with
      | ':' :: cs =>
        match readValue supply depth (skipSpace cs) with
        | (value, none) => ([(key, value)], none, none)
        | (value, some rest) =>
          let (members, close, rest) := readMembers supply depth false (skipSpace rest)
          ((key, value) :: members, close, rest)
      | [] => ([(key, .broken (.of .eofObject) .other)], none, none)
      | _ => ([(key, .broken (.of .expectedColon) .other)], none, none)

end

/-- The value at the front of a text and what follows it. -/
def read (cs : List Char) : Front :=
  readValue (3 * cs.length + 3) 0 (skipSpace cs)

/-- Accepts what follows a whole value: blanks alone. -/
def finish : Option (List Char) → Except Fault Unit
  | none => .ok ()
  | some rest => if (skipSpace rest).isEmpty then .ok () else .error .trailingCharacters

end Reading

/-- The value that a whole text holds. -/
def parse (s : String) : Except Fault Json := do
  let (reading, rest) := Reading.read s.toList
  let value ← reading.toJson
  Reading.finish rest
  return value

end ConversationSearch.Json

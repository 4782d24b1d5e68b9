import ConversationSearch.Json.Reader

/-!
# Where a text has its fault

A place is given by its line and by the octets of that line up to it and with it. A text that is
cut off has its fault at its end. Any other fault stands at the last character of the shortest
front of the text that has a fault other than being cut off: up to there the text could still have
gone on well.
-/

namespace ConversationSearch.Json

/-- A place in a text. -/
structure Place where
  /-- The line, counted from one. -/
  line : Nat
  /-- The octets of the line that stand before the place or at it. -/
  column : Nat
  deriving DecidableEq, Repr

namespace Place

/-- The line that a text ends in, backwards. -/
def lastLine (cs : List Char) : List Char :=
  cs.reverse.takeWhile (· != '\n')

/-- How many octets some characters take. -/
def octets (cs : List Char) : Nat :=
  (String.ofList cs).utf8ByteSize

/-- The end of a text. -/
def ofEnd (cs : List Char) : Place :=
  ⟨1 + cs.count '\n', octets (lastLine cs)⟩

/-- The first octet of the last character of a text; a line break already counts as the next line.
-/
def ofLast (cs : List Char) : Place :=
  match lastLine cs with
  | [] => ofEnd cs
  | _ :: before => ⟨1 + cs.count '\n', octets before + 1⟩

/-- The wording of a place. -/
def message (p : Place) : String :=
  "line " ++ String.ofList (Text.digits p.line) ++
    " column " ++ String.ofList (Text.digits p.column)

end Place

namespace Fault

/-- Whether the text ends too early. -/
def isCutOff : Fault → Bool
  | .eofValue | .eofArray | .eofObject | .eofString => true
  | _ => false

/-- Whether a text is at fault and no text that starts with it is without a fault. -/
def isHopeless (cs : List Char) : Bool :=
  match parse (String.ofList cs) with
  | .ok _ => false
  | .error fault => !fault.isCutOff

/-- Where a text has its fault. -/
def place (s : String) (fault : Fault) : Place :=
  let cs := s.toList
  if fault.isCutOff then .ofEnd cs
  else
    let fronts := (List.range (cs.length + 1)).map cs.take
    .ofLast ((fronts.find? isHopeless).getD cs)

/-- The wording of the fault of a text, with its place. -/
def messageIn (s : String) (fault : Fault) : String :=
  fault.message ++ " at " ++ (place s fault).message

end Fault
end ConversationSearch.Json

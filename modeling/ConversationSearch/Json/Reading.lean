import ConversationSearch.Json.Basic
import ConversationSearch.Json.Fault

/-!
# Readings

A reading is what a text gives up to the point where it can be read no further. The faults of the
text stay in the reading at the places where they were met, so that whoever walks through it in
order meets them in the order of the text: a value of the wrong type is noticed before a fault
that stands behind it.

Some faults matter only to a walker who wants the value. A number beyond every double, an unpaired
surrogate and nesting that is too deep can be skipped over; the reading of such a value is
`rejected`. And a few faults have another name when they are met while skipping, which is why a
`Break` holds two.
-/

namespace ConversationSearch.Json

/-- The place where a text breaks off: the fault that a reader meets there, and the one that is
met when the value is skipped. -/
structure Break where
  reading : Fault
  skipping : Fault
  deriving DecidableEq, Repr, Inhabited

/-- The break whose fault has one name. -/
def Break.of (fault : Fault) : Break :=
  ⟨fault, fault⟩

/-- How a value that breaks off started: with a quote, with the first letter of `null`, with
something else, or not at all. -/
inductive Opening
  | quote
  | letterN
  | other
  | nothing
  deriving DecidableEq, Repr, Inhabited

/-- What a text gives where a value should stand. The keys of an object are readings too: only a
string is a key, but what stands there instead can be of interest. -/
inductive Reading
  | null
  | bool (value : Bool)
  | number (value : Number)
  | string (text : String)
  | array (items : List Reading) (close : Option Break)
  | object (members : List (Reading × Reading)) (close : Option Break)
  | rejected (fault : Fault) (skipped : Reading)
  | broken (place : Break) (opening : Opening)
  deriving Repr, Inhabited

mutual

/-- The reading of a value: whole, without faults, its members in their order. -/
def toReading : Json → Reading
  | .null => .null
  | .bool b => .bool b
  | .number n => .number n
  | .string s => .string s
  | .array items => .array (itemsToReadings items) none
  | .object members => .object (membersToReadings members) none

/-- The readings of items. -/
def itemsToReadings : List Json → List Reading
  | [] => []
  | item :: rest => toReading item :: itemsToReadings rest

/-- The readings of members. -/
def membersToReadings : List (String × Json) → List (Reading × Reading)
  | [] => []
  | (key, value) :: rest => (.string key, toReading value) :: membersToReadings rest

end

namespace Reading

mutual

/-- Skips a value: the fault that is met on the way, if there is one. -/
def skip : Reading → Option Fault
  | .null | .bool _ | .number _ | .string _ => none
  | .array items close => (skipItems items).or (close.map (·.skipping))
  | .object members close => (skipMembers members).or (close.map (·.skipping))
  | .rejected _ skipped => skip skipped
  | .broken place _ => some place.skipping

/-- Skips items. -/
def skipItems : List Reading → Option Fault
  | [] => none
  | item :: rest => (skip item).or (skipItems rest)

/-- Skips members; a key that is no string is a fault. -/
def skipMembers : List (Reading × Reading) → Option Fault
  | [] => none
  | (key, value) :: rest => (skipKey key).or ((skip value).or (skipMembers rest))

/-- Skips a key. -/
def skipKey : Reading → Option Fault
  | .string _ => none
  | .rejected _ (.string _) => none
  | .broken place .quote => some place.skipping
  | _ => some .keyNotString

end

/-- The text of a key. -/
def key : Reading → Except Fault String
  | .string text => .ok text
  | .rejected fault (.string _) => .error fault
  | .broken place .quote => .error place.reading
  | _ => .error .keyNotString

/-- The fault that closes a list of items or members, if there is one. -/
def closing : Option Break → Except Fault Unit
  | none => .ok ()
  | some place => .error place.reading

mutual

/-- The value of a reading, or the first fault in it. Of members with one key the last stays. -/
def toJson : Reading → Except Fault Json
  | .null => .ok .null
  | .bool b => .ok (.bool b)
  | .number n => .ok (.number n)
  | .string s => .ok (.string s)
  | .array items close => do
    let values ← itemsToJson items
    closing close
    return .array values
  | .object members close => do
    let values ← membersToJson members
    closing close
    return .ofMembers values
  | .rejected fault _ => .error fault
  | .broken place _ => .error place.reading

/-- The values of items. -/
def itemsToJson : List Reading → Except Fault (List Json)
  | [] => .ok []
  | item :: rest => do
    let value ← toJson item
    let values ← itemsToJson rest
    return value :: values

/-- The members of an object, in their order. -/
def membersToJson : List (Reading × Reading) → Except Fault (List (String × Json))
  | [] => .ok []
  | (k, v) :: rest => do
    let name ← key k
    let value ← toJson v
    let values ← membersToJson rest
    return (name, value) :: values

end

end Reading
end ConversationSearch.Json

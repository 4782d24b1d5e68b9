import ConversationSearch.Json.Failure
import ConversationSearch.Json.Reader

/-!
# Decoders

A decoder turns a reading into a value of some type or says why it cannot. Readings have three
sources: a value that is already whole, a text, and a value that was first taken whole because its
kind was not known. The sources differ in the order of members, in whether a member can be given
twice, and in how some mismatches are named.

A `Shape` describes an object by its members. A decoder made from it visits the members in the
order in which they stand and reports the first that does not decode; only then does it report
members that are missing, in the order of the shape. An array of the members' values, in the order
of the shape, decodes too.
-/

namespace ConversationSearch.Json

/-- Where a reading comes from. -/
inductive Source
  | value
  | text
  | buffer
  deriving DecidableEq, Repr

/-- Turns a reading into a value of some type. -/
abbrev Decoder (α : Type) := Source → Reading → Except Failure α

namespace Decoder

/-- Decodes a whole value. -/
def ofJson (d : Decoder α) (j : Json) : Except Failure α :=
  d .value (toReading j)

/-- Decodes the value at the front of a text; what follows it is not looked at. -/
def ofFront (d : Decoder α) (s : String) : Except Failure α :=
  d .text (Reading.read s.toList).1

/-- Decodes a whole text. -/
def ofText (d : Decoder α) (s : String) : Except Failure α := do
  let (reading, rest) := Reading.read s.toList
  let a ← d .text reading
  (Reading.finish rest).mapError fun fault => .of (.unreadable fault)
  return a

/-- A fault of the text as a failure. -/
def unreadable (fault : Fault) : Failure :=
  .of (.unreadable fault)

/-- What a reading is, or the fault that is met in finding out. An array and an object are known by
their bracket. -/
def found : Reading → Except Fault Found
  | .null => .ok .null
  | .bool b => .ok (.bool b)
  | .number (.int n) => .ok (.int n)
  | .number (.real d) => .ok (.real d)
  | .string s => .ok (.string s)
  | .array _ _ => .ok .array
  | .object _ _ => .ok .object
  | .rejected _ (.array _ _) => .ok .array
  | .rejected _ (.object _ _) => .ok .object
  | .rejected fault _ => .error fault
  | .broken place _ => .error place.reading

/-- The failure of a reading that is not of the expected kind. -/
def mismatch (expected : String) (r : Reading) : Failure :=
  match found r with
  | .ok f => .of (.wrongType f expected)
  | .error fault => unreadable fault

/-- A text. -/
def string : Decoder String
  | _, .string s => .ok s
  | _, r => .error (mismatch "a string" r)

/-- A truth value. -/
def bool : Decoder Bool
  | _, .bool b => .ok b
  | _, r => .error (mismatch "a boolean" r)

/-- A natural number below `2 ^ width`. -/
def natural (width : Nat) (expected : String) : Decoder Nat
  | _, .number (.int n) =>
    if 0 ≤ n ∧ n.toNat < Nat.pow 2 width then .ok n.toNat
    else .error (.of (.wrongValue (.int n) expected))
  | _, r => .error (mismatch expected r)

/-- A natural number of sixty-four bits. -/
def uint64 : Decoder UInt64 := fun source r =>
  UInt64.ofNat <$> natural 64 "u64" source r

/-- A count, of sixty-four bits. -/
def count : Decoder UInt64 := fun source r =>
  UInt64.ofNat <$> natural 64 "usize" source r

/-- A natural number of thirty-two bits. -/
def uint32 : Decoder UInt32 := fun source r =>
  UInt32.ofNat <$> natural 32 "u32" source r

/-- A natural number of sixteen bits. -/
def uint16 : Decoder UInt16 := fun source r =>
  UInt16.ofNat <$> natural 16 "u16" source r

/-- A double; integers are rounded. -/
def real : Decoder Double
  | _, .number (.int n) => .ok (Double.ofInt n)
  | _, .number (.real d) => .ok d
  | _, r => .error (mismatch "f64" r)

/-- Any value. -/
def json : Decoder Json := fun _ r =>
  r.toJson.mapError unreadable

/-- A value that may be absent: `null` stands for its absence. -/
def option (d : Decoder α) : Decoder (Option α)
  | _, .null => .ok none
  | _, .broken place .letterN => .error (unreadable place.reading)
  | source, r => some <$> d source r

/-- A value that a reader of its own has to accept. -/
def refine (d : Decoder α) (f : α → Except String β) : Decoder β := fun source r => do
  let a ← d source r
  (f a).mapError fun reason => .of (.refused reason)

/-- The items of an array, from the given position on. -/
def items (d : Decoder α) (source : Source) : Nat → List Reading → Except Failure (List α)
  | _, [] => .ok []
  | n, r :: rest => do
    let a ← (d source r).mapError (·.under (.item n))
    let as ← items d source (n + 1) rest
    return a :: as

/-- The fault that closes an array or object as a failure. -/
def closing (close : Option Break) : Except Failure Unit :=
  (Reading.closing close).mapError unreadable

/-- An array. -/
def list (d : Decoder α) : Decoder (List α)
  | source, .array rs close => do
    let as ← items d source 0 rs
    closing close
    return as
  | _, r => .error (mismatch "a sequence" r)

/-- The fault between a key and its value: the colon is missing. -/
def colonFault? : Reading → Option Fault
  | .broken ⟨.expectedColon, _⟩ _ => some .expectedColon
  | .broken ⟨.eofObject, _⟩ _ => some .eofObject
  | _ => none

/-- The key of a member, once the colon behind it is there. -/
def memberKey (key value : Reading) : Except Failure String := do
  let name ← key.key.mapError unreadable
  match colonFault? value with
  | some fault => .error (unreadable fault)
  | none => return name

/-- The members of an object whose keys are arbitrary. -/
def members (d : Decoder α) (source : Source) :
    List (Reading × Reading) → Except Failure (List (String × α))
  | [] => .ok []
  | (key, value) :: rest => do
    let name ← memberKey key value
    let a ← (d source value).mapError (·.under (.member name))
    let as ← members d source rest
    return (name, a) :: as

/-- An object whose keys are arbitrary; of members with one key the last stays. -/
def dictionary (d : Decoder α) : Decoder (List (String × α))
  | source, .object ms close => do
    let entries ← members d source ms
    closing close
    return sortMembers entries
  | _, r => .error (mismatch "a map" r)

/-- The value of a name in a table of names. -/
def pick (table : List (String × α)) (name : String) : Except Failure α :=
  match table.lookup name with
  | some a => .ok a
  | none => .error (.of (.unknownVariant name (table.map (·.1))))

/-- Nothing but `null`; in a buffer the empty object counts as nothing too. -/
def unit : Decoder Unit
  | _, .null => .ok ()
  | .buffer, .object [] _ => .ok ()
  | _, r => .error (mismatch "unit" r)

/-- A name in a table of names, alone or as the only key of an object that holds nothing. -/
def variant (table : List (String × α)) : Decoder α
  | _, .string name => pick table name
  | .text, .object [] none => .error (unreadable .expectedValue)
  | .text, .object [] (some _) => .error (unreadable .eofValue)
  | .text, .object ((key, content) :: rest) close => do
    let name ← match key with
      | .string name => .ok name
      | .rejected fault (.string _) => .error (unreadable fault)
      | key => .error (mismatch "variant identifier" key)
    let a ← pick table name
    match colonFault? content with
    | some fault => .error (unreadable fault)
    | none =>
      (unit .text content).mapError (·.under (.content name))
      match rest, close with
      | [], none => return a
      | [], some ⟨.eofObject, _⟩ => .error (unreadable .eofObject)
      | _, _ => .error (unreadable .expectedValue)
  | .text, .broken place opening =>
    match opening with
    | .quote | .nothing => .error (unreadable place.reading)
    | _ => .error (unreadable .expectedValue)
  | .text, .rejected fault (.string _) => .error (unreadable fault)
  | .text, _ => .error (unreadable .expectedValue)
  | source, .object [(.string name, content)] _ => do
    let a ← pick table name
    (unit source content).mapError (·.under (.content name))
    return a
  | _, .object _ _ => .error (.of (.wrongValue .object "map with a single key"))
  | _, r => .error (mismatch "string or map" r)

/-- A value of one of several kinds, the first that it decodes as. -/
def untagged (kind : String) (decoders : List (Decoder α)) : Decoder α := fun _ r =>
  match r.toJson with
  | .error fault => .error (unreadable fault)
  | .ok _ =>
    match decoders.findSome? fun d => (d .buffer r).toOption with
    | some a => .ok a
    | none => .error (.of (.unmatched kind))

end Decoder

/-- What is known about a member: its key, whether its value decodes, whether it may be missing in
an object, and whether it may be missing at the end of an array. -/
structure Rule where
  name : String
  check : Source → Reading → Except Failure Unit
  optional : Bool
  trailing : Bool

/-- The members that were found. -/
structure Fields where
  source : Source
  found : List (String × Reading)

/-- The value of a member, if it was found. -/
def Fields.get? (fields : Fields) (name : String) (d : Decoder α) : Except Failure (Option α) :=
  match fields.found.lookup name with
  | none => .ok none
  | some r => some <$> d fields.source r

/-- The members of an object, and how a value is built from them. -/
structure Shape (α : Type) where
  rules : List Rule
  build : Fields → Except Failure α

namespace Shape

instance : Applicative Shape where
  pure a := ⟨[], fun _ => .ok a⟩
  seq f x :=
    let x := x ()
    ⟨f.rules ++ x.rules, fun fields => do
      let g ← f.build fields
      let a ← x.build fields
      return g a⟩

/-- A rule for a member that the decoder accepts. -/
def rule (name : String) (d : Decoder α) (optional trailing : Bool) : Rule :=
  ⟨name, fun source r => (d source r).map fun _ => (), optional, trailing⟩

/-- A member that has to be there. -/
def required (name : String) (d : Decoder α) : Shape α :=
  ⟨[rule name d false false], fun fields => do
    match ← fields.get? name d with
    | some a => return a
    | none => .error (.of (.missingField name))⟩

/-- A member that an object may leave out or give as `null`. -/
def optional (name : String) (d : Decoder α) : Shape (Option α) :=
  ⟨[rule name (Decoder.option d) true false], fun fields => do
    return (← fields.get? name (Decoder.option d)).join⟩

/-- A member that may be left out, a default standing in for it. -/
def defaulted (name : String) (d : Decoder α) (default : α) : Shape α :=
  ⟨[rule name d true true], fun fields => do
    return (← fields.get? name d).getD default⟩

/-- Visits the members of an object in their order. -/
def visitMembers (rules : List Rule) (source : Source) :
    List (Reading × Reading) → List (String × Reading) →
      Except Failure (List (String × Reading))
  | [], seen => .ok seen
  | (key, value) :: rest, seen => do
    let name ← Decoder.memberKey key value
    match rules.find? (·.name == name) with
    | none =>
      match value.skip with
      | some fault => .error ((Decoder.unreadable fault).under (.member name))
      | none => visitMembers rules source rest seen
    | some rule =>
      if (seen.lookup name).isSome then .error (.of (.duplicateField name))
      else
        (rule.check source value).mapError (·.under (.member name))
        visitMembers rules source rest (seen ++ [(name, value)])

/-- How a text goes on behind the last item that is wanted. -/
def behindLast (source : Source) (count : Nat) (rest : List Reading) (close : Option Break) :
    Except Failure Unit :=
  match source, rest, close with
  | _, [], none => .ok ()
  | .text, [], some ⟨.eofArray, _⟩ => .error (Decoder.unreadable .eofArray)
  | .text, [], some ⟨.trailingComma, _⟩ => .error (Decoder.unreadable .trailingComma)
  | .text, _, _ => .error (Decoder.unreadable .trailingCharacters)
  | _, rest, _ =>
    .error (.of (.wrongLength (count + rest.length) "fewer elements in array"))

/-- Visits the items of an array, one for each rule. -/
def visitItems (kind : String) (total : Nat) (source : Source) (close : Option Break) :
    Nat → List Rule → List Reading → List (String × Reading) →
      Except Failure (List (String × Reading))
  | n, [], rest, seen => do
    behindLast source n rest close
    return seen
  | n, rules, [], seen => do
    Decoder.closing close
    match rules.findIdx? (fun rule => !rule.trailing) with
    | none => return seen
    | some skipped => .error (.of (.wrongLength (n + skipped) (elements kind total)))
  | n, rule :: rules, item :: rest, seen => do
    (rule.check source item).mapError (·.under (.item n))
    visitItems kind total source close (n + 1) rules rest (seen ++ [(rule.name, item)])
where
  /-- The wording of the number of items that an array should have. -/
  elements (kind : String) (total : Nat) : String :=
    "struct " ++ kind ++ " with " ++ String.ofList (Text.digits total) ++
      (if total = 1 then " element" else " elements")

/-- Decodes an object of the shape, or an array of its members' values. -/
def decoder (kind : String) (s : Shape α) : Decoder α
  | source, .object members close => do
    let found ← visitMembers s.rules source members []
    Decoder.closing close
    s.build ⟨source, found⟩
  | source, .array items close => do
    let found ← visitItems kind s.rules.length source close 0 s.rules items []
    s.build ⟨source, found⟩
  | _, r => .error (Decoder.mismatch ("struct " ++ kind) r)

/-- Decodes an object of the shape; an array of its members' values is not accepted. -/
def objectDecoder (kind : String) (s : Shape α) : Decoder α
  | source, .object members close => s.decoder kind source (.object members close)
  | _, r => .error (Decoder.mismatch ("struct " ++ kind) r)

end Shape
end ConversationSearch.Json

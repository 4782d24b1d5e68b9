import ConversationSearch.Json.Double

/-!
# JSON values

An object is a list of members. Values built by this library keep their members in ascending
order of key with no key twice; `Json.ofMembers` brings any list into that form. Integers and
doubles are told apart, since `1` and `1.0` are written differently.
-/

namespace ConversationSearch

/-- A JSON number: an integer, or a double where the text has a fraction or an exponent or does
not fit sixty-four bits. -/
inductive Json.Number
  | int (value : Int)
  | real (value : Json.Double)
  deriving DecidableEq, Repr, Inhabited

/-- A JSON value. -/
inductive Json
  | null
  | bool (value : Bool)
  | number (value : Json.Number)
  | string (text : String)
  | array (items : List Json)
  | object (members : List (String × Json))
  deriving Repr, Inhabited

namespace Json

/-- The integer as a JSON value. -/
def int (n : Int) : Json :=
  .number (.int n)

/-- The natural number as a JSON value. -/
def nat (n : Nat) : Json :=
  .number (.int n)

/-- The object without members. -/
def empty : Json :=
  .object []

/-- Puts a member into its place by key, over the one with the same key if there is one. -/
def insert (key : String) (value : α) : List (String × α) → List (String × α)
  | [] => [(key, value)]
  | (k, v) :: rest =>
    if key < k then (key, value) :: (k, v) :: rest
    else if key = k then (key, value) :: rest
    else (k, v) :: insert key value rest

/-- The members in ascending order of key; of several with one key the last stays. -/
def sortMembers (members : List (String × α)) : List (String × α) :=
  members.foldl (fun acc m => insert m.1 m.2 acc) []

/-- The object with the given members, in ascending order of key. -/
def ofMembers (members : List (String × Json)) : Json :=
  .object (sortMembers members)

/-- A value that may be absent, `null` standing for its absence. -/
def ofOption (f : α → Json) : Option α → Json
  | none => .null
  | some a => f a

/-- A text that may be absent. -/
def ofText? : Option String → Json :=
  ofOption .string

/-- A member, where there is a value for it. -/
def member? (key : String) (f : α → Json) : Option α → List (String × Json)
  | none => []
  | some a => [(key, f a)]

/-- The member with the given key; other values than objects have none. -/
def get? (key : String) : Json → Option Json
  | .object members => members.lookup key
  | _ => none

/-- The text of a string. -/
def text? : Json → Option String
  | .string s => some s
  | _ => none

/-- The truth value of a boolean. -/
def bool? : Json → Option Bool
  | .bool b => some b
  | _ => none

/-- The items of an array. -/
def items? : Json → Option (List Json)
  | .array items => some items
  | _ => none

mutual

/-- Whether two values are the same, members and items in the same order. -/
def same : Json → Json → Bool
  | .null, .null => true
  | .bool a, .bool b => a == b
  | .number a, .number b => a == b
  | .string a, .string b => a == b
  | .array a, .array b => sameItems a b
  | .object a, .object b => sameMembers a b
  | _, _ => false

/-- Whether two lists of items are the same. -/
def sameItems : List Json → List Json → Bool
  | [], [] => true
  | a :: as, b :: bs => same a b && sameItems as bs
  | _, _ => false

/-- Whether two lists of members are the same. -/
def sameMembers : List (String × Json) → List (String × Json) → Bool
  | [], [] => true
  | (k, a) :: as, (l, b) :: bs => k == l && same a b && sameMembers as bs
  | _, _ => false

end

mutual

/-- Two values are the same when they are equal. -/
theorem same_iff (a b : Json) :
    same a b = true ↔ a = b := by
  cases a <;> cases b <;> simp [same, sameItems_iff, sameMembers_iff]

/-- Two lists of items are the same when they are equal. -/
theorem sameItems_iff (as bs : List Json) :
    sameItems as bs = true ↔ as = bs := by
  cases as <;> cases bs <;> simp [sameItems, same_iff, sameItems_iff]

/-- Two lists of members are the same when they are equal. -/
theorem sameMembers_iff (as bs : List (String × Json)) :
    sameMembers as bs = true ↔ as = bs := by
  rcases as with _ | ⟨⟨k, a⟩, as⟩ <;> rcases bs with _ | ⟨⟨l, b⟩, bs⟩ <;>
    simp [sameMembers, same_iff, sameMembers_iff]

end

instance : DecidableEq Json := fun a b =>
  decidable_of_iff (same a b = true) (same_iff a b)

end Json
end ConversationSearch

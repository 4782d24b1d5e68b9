import ConversationSearch.Search.Request

/-!
# Query clauses

A query is a tree of clauses: matching everything, matching a text with tolerance for typing errors,
matching a value exactly, restricting a date, and combining clauses. `toJson` writes a clause in the
engine's query language.
-/

namespace ConversationSearch

/-- Bounds on a date; a side that is not given is open. -/
structure DateBounds where
  gt : Option Time.Instant := none
  gte : Option Time.Instant := none
  lt : Option Time.Instant := none
  lte : Option Time.Instant := none
  deriving DecidableEq

namespace DateBounds

/-- Whether no bound is given. -/
def isUnbounded (b : DateBounds) : Bool :=
  b.gt.isNone && b.gte.isNone && b.lt.isNone && b.lte.isNone

/-- Whether an instant is within every bound. -/
def contains (b : DateBounds) (t : Time.Instant) : Bool :=
  b.gt.all (fun x => decide (x < t)) && b.gte.all (fun x => decide (x ≤ t)) &&
    b.lt.all (fun x => decide (t < x)) && b.lte.all (fun x => decide (t ≤ x))

/-- A bound as a JSON value. -/
def boundJson (t : Time.Instant) : Json :=
  .string t.text

/-- The bounds that are given. -/
def toJson (b : DateBounds) : Json :=
  .object
    (Json.member? "gt" boundJson b.gt ++ Json.member? "gte" boundJson b.gte ++
     Json.member? "lt" boundJson b.lt ++ Json.member? "lte" boundJson b.lte)

end DateBounds

/-- The bounds on the date that filters ask for, to the millisecond, which is how the index compares
dates. -/
def Filters.dateBounds (f : Filters) : DateBounds where
  gt := f.after.map (·.toMillis)
  gte := f.during.map (·.toMillis)
  lt := f.before.map (·.toMillis)
  lte := f.during.map (·.toMillis)

/-- A field that is searched for text, and the weight of a match in it. -/
structure BoostedField where
  field : String
  boost : Option Nat := none
  deriving DecidableEq, Repr

/-- The name of the field, with its weight behind it. -/
def BoostedField.text (f : BoostedField) : String :=
  match f.boost with
  | none => f.field
  | some boost => f.field ++ "^" ++ String.ofList (Text.digits boost)

/-- A node of a query. -/
inductive Clause
  /-- Every document. -/
  | matchAll
  /-- Documents with the text, or something close to it, in one of the fields. -/
  | multiMatch (query : String) (fields : List BoostedField)
  /-- Documents whose field is the value. -/
  | term (field : String) (value : Json)
  /-- Documents whose date is within the bounds. -/
  | range (field : String) (bounds : DateBounds)
  /-- Documents that all clauses match; the first list counts for relevance, the second does not. -/
  | bool (must filter : List Clause)

namespace Clause

/-- The edit distance that a match tolerates, which grows with the length of the word. -/
def fuzziness : String :=
  "AUTO"

mutual

/-- The clause in the engine's query language. -/
def toJson : Clause → Json
  | .matchAll => .object [("match_all", .empty)]
  | .multiMatch query fields =>
    .object
      [("multi_match", .object
        [("fields", .array (fields.map (.string ·.text))),
         ("fuzziness", .string fuzziness),
         ("query", .string query)])]
  | .term field value => .object [("term", .object [(field, value)])]
  | .range field bounds => .object [("range", .object [(field, bounds.toJson)])]
  | .bool must filter =>
    .object
      [("bool", .object [("filter", .array (listJson filter)), ("must", .array (listJson must))])]

/-- The clauses of a list in the engine's query language. -/
def listJson : List Clause → List Json
  | [] => []
  | c :: rest => c.toJson :: listJson rest

end

end Clause
end ConversationSearch

import ConversationSearch.Schema.Field

/-!
# Mappings

A declaration is given to the engine as a mapping, an object that says for each field its type.
`check` compares a mapping that the engine reports with a declaration: it names each field that is
missing, has another type, or lacks its verbatim field. A field that is missing or has another type
is reported once, and nothing below it is.
-/

namespace ConversationSearch.Schema

/-- The type of a field without anything below it. -/
def plainMapping (typeName : String) : Json :=
  .object [("type", .string typeName)]

mutual

/-- The mapping of a field. -/
def FieldKind.mapping : FieldKind → Json
  | .textWithKeyword =>
    .object
      [("fields", .object [(keywordSubfield, plainMapping "keyword")]),
       ("type", .string "text")]
  | .nested fields =>
    .object [("properties", .ofMembers (mappedFields fields)), ("type", .string "nested")]
  | .keyword => plainMapping "keyword"
  | .text => plainMapping "text"
  | .date => plainMapping "date"
  | .boolean => plainMapping "boolean"

/-- The mappings of fields, by name. -/
def mappedFields : List (String × FieldKind) → List (String × Json)
  | [] => []
  | (name, kind) :: rest => (name, kind.mapping) :: mappedFields rest

end

/-- The mapping of a declaration. -/
def mappings (fields : Fields) : Json :=
  .object [("properties", .ofMembers (mappedFields fields))]

/-- What the engine is given to create an index. -/
def indexBody (fields : Fields) : Json :=
  .object [("mappings", mappings fields)]

/-- A way in which a mapping differs from a declaration. -/
inductive Difference
  | missing (place name : String)
  | otherType (path found expected : String)
  | noKeyword (path : String)
  deriving DecidableEq, Repr

/-- The wording of a difference. -/
def Difference.message : Difference → String
  | .missing place name => "Missing field in " ++ place ++ " mapping: " ++ name
  | .otherType path found expected =>
    "Field " ++ path ++ " has type '" ++ found ++ "', expected '" ++ expected ++ "'"
  | .noKeyword path => "Field " ++ path ++ " lacks an exact '" ++ keywordSubfield ++ "' sub-field"

/-- The type that a mapping gives a field; objects are not given one. -/
def liveType (live : Json) : String :=
  ((live.get? "type").bind Json.text?).getD "object"

/-- Whether a mapping gives a field its verbatim field. -/
def hasKeyword (live : Json) : Bool :=
  let found := do
    let fields ← live.get? "fields"
    let keyword ← fields.get? keywordSubfield
    let type ← keyword.get? "type"
    type.text?
  found == some "keyword"

mutual

/-- The differences between a field's mapping and its kind. -/
def FieldKind.differences (path : String) (live : Json) (kind : FieldKind) : List Difference :=
  if liveType live ≠ kind.typeName then [.otherType path (liveType live) kind.typeName]
  else
    match kind with
    | .textWithKeyword => if hasKeyword live then [] else [.noKeyword path]
    | .nested inner => fieldDifferences path (live.get? "properties") inner
    | _ => []

/-- The differences between mappings and declared fields, in the order of the declaration. -/
def fieldDifferences (place : String) (live : Option Json) :
    List (String × FieldKind) → List Difference
  | [] => []
  | (name, kind) :: rest =>
    (match live.bind (·.get? name) with
      | none => [.missing place name]
      | some actual => kind.differences (place ++ "." ++ name) actual) ++
    fieldDifferences place live rest

end

/-- The differences between a mapping and the declaration for a kind of document. -/
def differences (place : String) (fields : Fields) (live : Json) : List Difference :=
  fieldDifferences place (live.get? "properties") fields

/-- What came of comparing a mapping with its declaration. -/
structure Verification where
  isValid : Bool
  errors : List String
  deriving DecidableEq, Repr

namespace Verification

/-- The outcome with the given errors; without any the mapping is valid. -/
def ofErrors (errors : List String) : Verification :=
  ⟨errors.isEmpty, errors⟩

/-- The members of an outcome. -/
def shape : Json.Shape Verification :=
  Verification.mk
    <$> .required "isValid" Json.Decoder.bool
    <*> .required "errors" (Json.Decoder.list Json.Decoder.string)

/-- Reads an outcome. -/
def decoder : Json.Decoder Verification :=
  shape.decoder "MappingVerification"

/-- The outcome as a JSON value. -/
def toJson (v : Verification) : Json :=
  .object [("errors", .array (v.errors.map .string)), ("isValid", .bool v.isValid)]

end Verification
end Schema

/-- Compares a mapping with the declaration for a kind of document. -/
def Entity.verify (e : Entity) (live : Json) : Schema.Verification :=
  .ofErrors ((Schema.differences e.name e.fields live).map (·.message))

end ConversationSearch

import ConversationSearch.Text.Digits

/-!
# Media types

A media type is two names with a slash between them, and parameters behind. The second name may
end in a suffix behind a plus sign. A body is taken for JSON when its type is `application`, and
JSON is the second name or its suffix.
-/

namespace ConversationSearch

/-- A media type without its parameters. -/
structure MediaType where
  kind : String
  subtype : String
  suffix : Option String
  deriving DecidableEq, Repr

namespace MediaType

/-- The characters of a name. -/
def isTokenChar (c : Char) : Bool :=
  c.isAlphanum || "!#$%&'+-.^_`|~".toList.contains c

/-- The characters between quotes. -/
def isQuotedChar (c : Char) : Bool :=
  31 < c.toNat && c.toNat < 127

/-- What follows a quoted value and the blanks behind it: the next parameter, or nothing. -/
def afterQuoted (cs : List Char) : Option (List Char) :=
  match cs.dropWhile (· == ' ') with
  | [] => some []
  | ';' :: rest => some rest
  | _ => none

/-- What follows the value of a parameter. A quoted value has at least one character, which may be a
quote; a value without quotes may be empty only at the end. -/
def afterValue : List Char → Option (List Char)
  | '"' :: [] => none
  | '"' :: c :: rest =>
    if isQuotedChar c && c != '"' then
      match rest.dropWhile fun c => isQuotedChar c && c != '"' with
      | '"' :: rest => afterQuoted rest
      | _ => none
    else if c = '"' then
      match rest.dropWhile fun c => isQuotedChar c && c != '"' with
      | '"' :: rest => afterQuoted rest
      | _ => none
    else none
  | cs =>
    match cs.takeWhile isTokenChar, cs.dropWhile isTokenChar with
    | _, [] => some []
    | _ :: _, ';' :: rest => some rest
    | _, _ => none

/-- Whether parameters are well formed. The supply is lowered by each parameter. -/
def areParameters : (supply : Nat) → List Char → Bool
  | _, [] => true
  | 0, _ => false
  | supply + 1, cs =>
    match cs.dropWhile (· == ' ') with
    | [] => true
    | cs =>
      match cs.takeWhile isTokenChar, cs.dropWhile isTokenChar with
      | _ :: _, '=' :: value =>
        match afterValue value with
        | some rest => areParameters supply rest
        | none => false
      | _, _ => false

/-- The second name without its suffix, and the suffix. The plus sign of a suffix is the last one,
and it is not the first character. -/
def splitSuffix (name : List Char) : List Char × Option (List Char) :=
  match name with
  | [] => ([], none)
  | first :: rest =>
    if rest.contains '+' then
      let reversed := rest.reverse
      let suffix := (reversed.takeWhile (· != '+')).reverse
      (first :: ((reversed.dropWhile (· != '+')).drop 1).reverse, some suffix)
    else (name, none)

/-- The media type that a text names; letter case does not count. -/
def parse? (s : String) : Option MediaType :=
  let cs := s.toList
  let kind := cs.takeWhile isTokenChar
  match kind, cs.dropWhile isTokenChar with
  | _ :: _, '/' :: rest =>
    let name := rest.takeWhile isTokenChar
    let parameters := rest.dropWhile isTokenChar
    let wellFormed := match name, parameters with
      | _, [] => true
      | _ :: _, ';' :: parameters => areParameters (parameters.length + 1) parameters
      | _, _ => false
    if wellFormed then
      let lower := fun cs => String.ofList (cs.map Char.toLower)
      let (subtype, suffix) := splitSuffix name
      some ⟨lower kind, lower subtype, suffix.map lower⟩
    else none
  | _, _ => none

/-- Whether bodies of the type are JSON. -/
def isJson (m : MediaType) : Bool :=
  m.kind == "application" && (m.subtype == "json" || m.suffix == some "json")

end MediaType
end ConversationSearch

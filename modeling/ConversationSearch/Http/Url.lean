import ConversationSearch.Http.Host

/-!
# Addresses

The address of a resource names the way to reach it, the host, perhaps a number behind the host,
the path and the query. Blanks around it and line breaks in it do not count, backslashes count as
slashes, and more slashes than two before the host are no harm. Segments of the path that name the
same or the parent directory are resolved. What follows a hash is not sent.
-/

namespace ConversationSearch

/-- Why an address cannot be used. -/
inductive UrlFault
  /-- It does not say how to reach the resource. -/
  | relative
  | invalidHost (fault : HostFault)
  | invalidPort
  /-- It says so in a way that is not supported. -/
  | unsupportedScheme (address : String)
  deriving DecidableEq, Repr

/-- The wording of a fault, as that of a request that could not be made. -/
def UrlFault.message : UrlFault → String
  | .relative => "builder error: relative URL without a base"
  | .invalidHost fault => "builder error: " ++ fault.message
  | .invalidPort => "builder error: invalid port number"
  | .unsupportedScheme address =>
    "builder error for url (" ++ address ++ "): URL scheme is not allowed"

/-- An address of a resource that is reached over HTTP. -/
structure Url where
  /-- Whether the connection is encrypted. -/
  secure : Bool
  host : String
  /-- The number behind the host: where on the host the server listens. -/
  tcpPort : Option UInt16
  path : String
  query : Option String
  deriving DecidableEq, Repr

namespace Url

/-- The path and the query as they are sent. -/
def target (u : Url) : String :=
  u.path ++ (u.query.map ("?" ++ ·)).getD ""

/-- The characters of an address that count. -/
def significant (s : String) : List Char :=
  let isMargin (c : Char) : Bool := c.toNat ≤ 32
  let trimmed := ((s.toList.dropWhile isMargin).reverse.dropWhile isMargin).reverse
  trimmed.filter fun c => c != '\t' && c != '\n' && c != '\r'

/-- Whether a character may stand in a scheme behind its first letter. -/
def isSchemeChar (c : Char) : Bool :=
  c.isAlphanum || c == '+' || c == '-' || c == '.'

/-- The scheme in small letters and what follows its colon. -/
def splitScheme (cs : List Char) : Option (String × List Char) :=
  match cs.takeWhile isSchemeChar, cs.dropWhile isSchemeChar with
  | c :: scheme, ':' :: rest =>
    if c.isAlpha then some (String.ofList ((c :: scheme).map Char.toLower), rest) else none
  | _, _ => none

/-- Whether a character separates segments of the path. -/
def isSlash (c : Char) : Bool :=
  c == '/' || c == '\\'

/-- Whether a character ends the host and the number behind it. -/
def endsAuthority (c : Char) : Bool :=
  isSlash c || c == '?' || c == '#'

/-- What follows the last at sign: the host and its number without the name of a user. -/
def withoutUser (cs : List Char) : List Char :=
  (cs.reverse.takeWhile (· != '@')).reverse

/-- Splits the number from the host; colons between brackets belong to the host. -/
def splitPort : (inBrackets : Bool) → List Char → List Char × Option (List Char)
  | _, [] => ([], none)
  | inBrackets, c :: rest =>
    if c = ':' ∧ !inBrackets then ([], some rest)
    else
      let inBrackets := if c = '[' then true else if c = ']' then false else inBrackets
      let (host, number) := splitPort inBrackets rest
      (c :: host, number)

/-- Reads the number behind a host; it may be left out behind its colon. -/
def parsePort : Option (List Char) → Except UrlFault (Option UInt16)
  | none | some [] => .ok none
  | some ds =>
    if ds.all Text.isDigit ∧ Text.number ds < 65536 then .ok (some (.ofNat (Text.number ds)))
    else .error .invalidPort

/-- Whether a segment names the directory that it is in. -/
def isSame (segment : List Char) : Bool :=
  [".", "%2e"].contains (String.ofList (segment.map Char.toLower))

/-- Whether a segment names the directory above the one that it is in. -/
def isParent (segment : List Char) : Bool :=
  ["..", ".%2e", "%2e.", "%2e%2e"].contains (String.ofList (segment.map Char.toLower))

/-- Goes down segments from those that were already gone down, the last of them first. -/
def resolve (above : List (List Char)) : List (List Char) → List (List Char)
  | [] => above
  | segment :: rest =>
    let above := if isParent segment then above.tail else above
    if isParent segment ∨ isSame segment then
      resolve (if rest.isEmpty then [] :: above else above) rest
    else resolve (segment :: above) rest

/-- The characters that do not stand for themselves in a path. -/
def reservedInPath : List Char :=
  [' ', '"', '#', '<', '>', '?', '\x60', '\x7b', '\x7d']

/-- The characters that do not stand for themselves in a query. -/
def reservedInQuery : List Char :=
  [' ', '"', '#', '<', '>', '\x27']

/-- The path as it is sent. -/
def pathOf (cs : List Char) : String :=
  let slashed := cs.map fun c => if isSlash c then '/' else c
  let segments := Text.splitChars '/' (if slashed.head? = some '/' then slashed.tail else slashed)
  let resolved := (resolve [] segments).reverse
  String.ofList (resolved.flatMap fun segment => '/' :: Text.Percent.encode reservedInPath segment)

/-- The query as it is sent. -/
def queryOf : List Char → Option String
  | '?' :: cs => some (String.ofList (Text.Percent.encode reservedInQuery cs))
  | _ => none

/-- Reads what follows the scheme. -/
def parseRest (secure : Bool) (cs : List Char) : Except UrlFault Url := do
  let cs := (cs.dropWhile isSlash).takeWhile (· != '#')
  let (host, number) := splitPort false (withoutUser (cs.takeWhile fun c => !endsAuthority c))
  let host ← (Host.parse host).mapError .invalidHost
  let tcpPort ← parsePort number
  let rest := cs.dropWhile fun c => !endsAuthority c
  return {
    secure := secure
    host := host
    tcpPort := tcpPort
    path := pathOf (rest.takeWhile (· != '?'))
    query := queryOf (rest.dropWhile (· != '?')) }

/-- Reads an address. -/
def parse (s : String) : Except UrlFault Url :=
  match splitScheme (significant s) with
  | none => .error .relative
  | some ("http", rest) => parseRest false rest
  | some ("https", rest) => parseRest true rest
  | some (scheme, rest) =>
    .error (.unsupportedScheme
      (scheme ++ ":" ++ String.ofList (Text.Percent.encode [] rest)))

end Url
end ConversationSearch

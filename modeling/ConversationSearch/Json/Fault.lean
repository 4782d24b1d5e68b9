/-!
# Faults of a JSON text

The ways in which a text can fail to be JSON, or can be JSON that no value holds, each with its
wording.
-/

namespace ConversationSearch.Json

/-- Why a text cannot be read as JSON. -/
inductive Fault
  /-- The text ends where a value should stand. -/
  | eofValue
  /-- The text ends inside an array. -/
  | eofArray
  /-- The text ends inside an object. -/
  | eofObject
  /-- The text ends inside a string. -/
  | eofString
  /-- No value starts with this character. -/
  | expectedValue
  /-- A word that starts as `null`, `true` or `false` goes on differently. -/
  | expectedWord
  /-- A key is not followed by a colon. -/
  | expectedColon
  /-- An item of an array is followed by neither a comma nor the end. -/
  | expectedArrayEnd
  /-- A member of an object is followed by neither a comma nor the end. -/
  | expectedObjectEnd
  /-- A key is no string. -/
  | keyNotString
  /-- A comma stands before the closing bracket. -/
  | trailingComma
  /-- Something follows where the text should end. -/
  | trailingCharacters
  /-- A backslash is followed by a character that it does not escape. -/
  | invalidEscape
  /-- The digits of a number are not where they should be. -/
  | invalidNumber
  /-- A number is larger than every double. -/
  | numberOutOfRange
  /-- A control character stands unescaped in a string. -/
  | controlCharacter
  /-- A low surrogate stands alone, or a high one is followed by another escape. -/
  | loneSurrogate
  /-- A high surrogate is followed by no escape. -/
  | unfinishedSurrogate
  /-- Arrays and objects are nested too deep. -/
  | tooDeep
  deriving DecidableEq, Repr, Inhabited

/-- The wording of a fault. -/
def Fault.message : Fault → String
  | .eofValue => "EOF while parsing a value"
  | .eofArray => "EOF while parsing a list"
  | .eofObject => "EOF while parsing an object"
  | .eofString => "EOF while parsing a string"
  | .expectedValue => "expected value"
  | .expectedWord => "expected ident"
  | .expectedColon => "expected `:`"
  | .expectedArrayEnd => "expected `,` or `]`"
  | .expectedObjectEnd => "expected `,` or `\x7d`"
  | .keyNotString => "key must be a string"
  | .trailingComma => "trailing comma"
  | .trailingCharacters => "trailing characters"
  | .invalidEscape => "invalid escape"
  | .invalidNumber => "invalid number"
  | .numberOutOfRange => "number out of range"
  | .controlCharacter => "control character (\\u0000-\\u001F) found while parsing a string"
  | .loneSurrogate => "lone leading surrogate in hex escape"
  | .unfinishedSurrogate => "unexpected end of hex escape"
  | .tooDeep => "recursion limit exceeded"

end ConversationSearch.Json

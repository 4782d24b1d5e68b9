import ConversationSearch.Json.Reading
import ConversationSearch.Text.Digits

/-!
# Quoted text

A string is written between quotes with quotes, backslashes and control characters escaped. Reading
takes more escapes than writing makes: a slash, and any UTF-16 unit by four hexadecimal digits,
where units above the first plane come in pairs of surrogates. An unpaired surrogate can be
skipped but not read.
-/

namespace ConversationSearch.Json

namespace Quoted

/-- A character as it is written inside a string. -/
def escape (c : Char) : List Char :=
  if c = '"' then ['\\', '"']
  else if c = '\\' then ['\\', '\\']
  else if c = '\n' then ['\\', 'n']
  else if c = '\r' then ['\\', 'r']
  else if c = '\t' then ['\\', 't']
  else if c = Char.ofNat 8 then ['\\', 'b']
  else if c = Char.ofNat 12 then ['\\', 'f']
  else if c.toNat < 32 then
    ['\\', 'u', '0', '0', Text.hexDigit (c.toNat / 16), Text.hexDigit (c.toNat % 16)]
  else [c]

/-- A text between quotes. -/
def encode (s : String) : List Char :=
  '"' :: s.toList.flatMap escape ++ ['"']

/-- The number that four hexadecimal digits stand for. -/
def unit? (a b c d : Char) : Option Nat := do
  let a ← Text.hexValue? a
  let b ← Text.hexValue? b
  let c ← Text.hexValue? c
  let d ← Text.hexValue? d
  return ((16 * a + b) * 16 + c) * 16 + d

/-- A unit that only ends a pair. -/
def isLow (unit : Nat) : Bool :=
  0xDC00 ≤ unit && unit ≤ 0xDFFF

/-- A unit that only starts a pair. -/
def isHigh (unit : Nat) : Bool :=
  0xD800 ≤ unit && unit ≤ 0xDBFF

/-- The character that a pair of units stands for. -/
def paired (high low : Nat) : Char :=
  Char.ofNat ((high - 0xD800) * 0x400 + (low - 0xDC00) + 0x10000)

/-- The character that a letter after a backslash stands for. -/
def unescape? (c : Char) : Option Char :=
  if c = '"' ∨ c = '\\' ∨ c = '/' then some c
  else if c = 'b' then some (Char.ofNat 8)
  else if c = 'f' then some (Char.ofNat 12)
  else if c = 'n' then some '\n'
  else if c = 'r' then some '\r'
  else if c = 't' then some '\t'
  else none

/-- What is found after an opening quote. -/
inductive Scan
  /-- The text up to the closing quote and what follows it. -/
  | closed (text : List Char) (rest : List Char)
  /-- A fault that can be skipped, and what follows the closing quote. -/
  | rejected (fault : Fault) (rest : List Char)
  /-- A fault behind which nothing can be read. -/
  | broken (place : Break)
  deriving Repr

/-- Puts a character in front of the text. -/
def Scan.push (c : Char) : Scan → Scan
  | .closed text rest => .closed (c :: text) rest
  | other => other

/-- Puts a fault that can be skipped in front of the text. -/
def Scan.reject (fault : Fault) : Scan → Scan
  | .closed _ rest => .rejected fault rest
  | .rejected _ rest => .rejected fault rest
  | .broken place => .broken ⟨fault, place.skipping⟩

/-- The fault of an escape that lacks its four digits: the four octets that follow are looked
at, and only when fewer are left has the text ended. -/
def unfinishedUnit (cs : List Char) : Scan :=
  if (String.ofList cs).utf8ByteSize < 4 then .broken (.of .eofString)
  else .broken (.of .invalidEscape)

/-- Reads up to the closing quote. -/
def scan : List Char → Scan
  | [] => .broken (.of .eofString)
  | '"' :: rest => .closed [] rest
  | '\\' :: 'u' :: a :: b :: c :: d :: rest =>
    match unit? a b c d with
    | none => .broken (.of .invalidEscape)
    | some unit =>
      if isLow unit then (scan rest).reject .loneSurrogate
      else if isHigh unit then
        match rest with
        | '\\' :: 'u' :: e :: f :: g :: h :: after =>
          match unit? e f g h with
          | none => .broken (.of .invalidEscape)
          | some low =>
            if isLow low then (scan after).push (paired unit low)
            else (scan after).reject .loneSurrogate
        | '\\' :: 'u' :: short => unfinishedUnit short
        | ['\\'] => .broken (.of .eofString)
        | [] => .broken (.of .eofString)
        | rest => (scan rest).reject .unfinishedSurrogate
      else (scan rest).push (Char.ofNat unit)
  | '\\' :: 'u' :: short => unfinishedUnit short
  | '\\' :: c :: rest =>
    match unescape? c with
    | none => .broken (.of .invalidEscape)
    | some c => (scan rest).push c
  | ['\\'] => .broken (.of .eofString)
  | c :: rest =>
    if c.toNat < 32 then .broken (.of .controlCharacter)
    else (scan rest).push c
termination_by cs => cs.length

end Quoted
end ConversationSearch.Json

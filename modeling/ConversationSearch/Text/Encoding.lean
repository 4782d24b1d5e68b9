import ConversationSearch.Text.Digits

/-!
# Octets written in texts

In Base64 octets are written in groups of three, each group as four letters of six bits. A last
group that is not full is filled up with equals signs.

In percent encoding an octet that may not stand for itself is written as a percent sign and two
hexadecimal digits. A character that may not stand for itself has each of its octets written so.
-/

namespace ConversationSearch.Text

namespace Base64

/-- The letters by their values. -/
def alphabet : List Char :=
  "ABCDEFGHIJKLMNOPQRSTUVWXYZabcdefghijklmnopqrstuvwxyz0123456789+/".toList

/-- The letter with a value below sixty-four. -/
def letter (n : Nat) : Char :=
  alphabet.getD n '='

/-- The letters of octets. -/
def encode : List UInt8 → List Char
  | [] => []
  | [a] =>
    let n := a.toNat * 16
    [letter (n / 64), letter (n % 64), '=', '=']
  | [a, b] =>
    let n := (a.toNat * 256 + b.toNat) * 4
    [letter (n / 4096), letter (n / 64 % 64), letter (n % 64), '=']
  | a :: b :: c :: rest =>
    let n := (a.toNat * 256 + b.toNat) * 256 + c.toNat
    letter (n / 262144) :: letter (n / 4096 % 64) :: letter (n / 64 % 64) :: letter (n % 64) ::
      encode rest

/-- The letters of a text. -/
def ofText (s : String) : String :=
  String.ofList (encode s.toUTF8.toList)

end Base64

namespace Percent

/-- The octets of a character. -/
def octets (c : Char) : List UInt8 :=
  (String.singleton c).toUTF8.toList

/-- An octet that may not stand for itself. -/
def escape (b : UInt8) : List Char :=
  ['%', capitalHexDigit (b.toNat / 16), capitalHexDigit (b.toNat % 16)]

/-- Whether a character never stands for itself: a control character, or one beyond ASCII. -/
def isControl (c : Char) : Bool :=
  c.toNat < 32 || 127 ≤ c.toNat

/-- A text in which neither control characters nor the reserved characters stand for themselves. -/
def encode (reserved : List Char) (cs : List Char) : List Char :=
  cs.flatMap fun c =>
    if isControl c || reserved.contains c then (octets c).flatMap escape else [c]

/-- The octets that a text stands for. A percent sign without two digits stands for itself. -/
def decode : List Char → List UInt8
  | [] => []
  | '%' :: a :: b :: rest =>
    match hexValue? a, hexValue? b with
    | some x, some y => .ofNat (16 * x + y) :: decode rest
    | _, _ => octets '%' ++ decode (a :: b :: rest)
  | c :: rest => octets c ++ decode rest

end Percent

end ConversationSearch.Text

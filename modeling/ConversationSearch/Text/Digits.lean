/-!
# Digits

Numbers are written with the ASCII digits. A number can be padded with zeros to a fixed width, as
the parts of a date are, and a run of digits can be read back.

Of the sixteen hexadecimal digits six are letters. Both cases of the letters are read; which case is
written depends on the format.
-/

namespace ConversationSearch.Text

/-! ## Decimal digits -/

/-- The digit for a number below ten. -/
def digit (n : Nat) : Char :=
  Char.ofNat ('0'.toNat + n % 10)

/-- The number that an ASCII digit stands for. -/
def digitValue? (c : Char) : Option Nat :=
  if '0' ≤ c ∧ c ≤ '9' then some (c.toNat - '0'.toNat) else none

/-- The ASCII digits. -/
def isDigit (c : Char) : Bool :=
  (digitValue? c).isSome

/-- The last `width` digits of a number, with zeros in front where it has fewer. -/
def padded : (width : Nat) → Nat → List Char
  | 0, _ => []
  | width + 1, n => padded width (n / 10) ++ [digit n]

/-- The digits of a number without zeros in front. -/
def digits (n : Nat) : List Char :=
  if n < 10 then [digit n] else digits (n / 10) ++ [digit n]
termination_by n

/-- The digits of a number, with zeros in front where it has fewer than `width`. -/
def atLeast (width n : Nat) : List Char :=
  if n < Nat.pow 10 width then padded width n else digits n

/-- An integer, with a sign where it is negative. -/
def integer (n : Int) : List Char :=
  match n with
  | .ofNat k => digits k
  | .negSucc k => '-' :: digits (k + 1)

/-- The number that a run of digits stands for; characters that are no digits count as zero. -/
def number (cs : List Char) : Nat :=
  cs.foldl (fun n c => 10 * n + (digitValue? c).getD 0) 0

/-- The digits at the front and what follows them. -/
def spanDigits (cs : List Char) : List Char × List Char :=
  (cs.takeWhile isDigit, cs.dropWhile isDigit)

/-! ## Hexadecimal digits -/

/-- The hexadecimal digit for a number below sixteen, the letters beginning with the given one. -/
def hexDigitFrom (letter : Char) (n : Nat) : Char :=
  if n < 10 then Char.ofNat ('0'.toNat + n) else Char.ofNat (letter.toNat + (n - 10))

/-- The hexadecimal digit for a number below sixteen, with a small letter. -/
def hexDigit : Nat → Char :=
  hexDigitFrom 'a'

/-- The hexadecimal digit for a number below sixteen, with a capital letter. -/
def capitalHexDigit : Nat → Char :=
  hexDigitFrom 'A'

/-- The number that a hexadecimal digit stands for. -/
def hexValue? (c : Char) : Option Nat :=
  if '0' ≤ c ∧ c ≤ '9' then some (c.toNat - '0'.toNat)
  else if 'a' ≤ c ∧ c ≤ 'f' then some (c.toNat - 'a'.toNat + 10)
  else if 'A' ≤ c ∧ c ≤ 'F' then some (c.toNat - 'A'.toNat + 10)
  else none

/-- The number that hexadecimal digits stand for. -/
def hexNumber? (ds : List Char) : Option Nat :=
  ds.foldlM (fun n c => (hexValue? c).map (16 * n + ·)) 0

end ConversationSearch.Text

import ConversationSearch.Json.Double

/-!
# Numbers in plain texts

Settings are given as texts, and some of those are meant as numbers. An integer is digits with or
without a sign. A decimal has digits before or after a point, or on both sides, and perhaps an
exponent; an infinity and what is not a number have names of their own. A decimal is rounded once,
to the nearest double.
-/

namespace ConversationSearch.Text

open Json (Double)

/-- Whether the text is negative, and the text without its sign. -/
def takeSign : List Char → Bool × List Char
  | '-' :: rest => (true, rest)
  | '+' :: rest => (false, rest)
  | rest => (false, rest)

/-- The number that a text of digits alone stands for. -/
def natural? (cs : List Char) : Option Nat :=
  if cs.isEmpty || !cs.all isDigit then none else some (number cs)

/-- The integer that digits with or without a sign stand for. -/
def integer? (cs : List Char) : Option Int :=
  let (negative, cs) := takeSign cs
  (natural? cs).map fun n => if negative then -n else n

/-- Whether an integer fits sixty-four bits with a sign. -/
def fitsWord (n : Int) : Bool :=
  -9223372036854775808 ≤ n && n ≤ 9223372036854775807

/-- The double nearest to `significand * 10 ^ exponent`; far beyond the range of doubles the power
is not worked out. -/
def decimalDouble (negative : Bool) (significand : Nat) (exponent : Int) : Double :=
  let magnitude := (digits significand).length + exponent
  if significand = 0 ∨ magnitude < -330 then Double.ofBits negative 0
  else if 310 < magnitude then Double.infinity negative
  else
    Double.nearest negative (significand * Nat.pow 10 exponent.toNat)
      (Nat.pow 10 (-exponent).toNat)

/-- The exponent of a decimal: none, or a letter followed by an integer. -/
def exponent? : List Char → Option Int
  | [] => some 0
  | 'e' :: rest => integer? rest
  | 'E' :: rest => integer? rest
  | _ => none

/-- The decimal that a text without a sign stands for. -/
def decimal? (negative : Bool) (cs : List Char) : Option Double :=
  let (whole, rest) := spanDigits cs
  let (fraction, rest) := match rest with
    | '.' :: rest => spanDigits rest
    | rest => ([], rest)
  if whole.isEmpty && fraction.isEmpty then none
  else
    (exponent? rest).map fun e =>
      decimalDouble negative (number (whole ++ fraction)) (e - fraction.length)

/-- The double that a text stands for. -/
def real? (cs : List Char) : Option Double :=
  let (negative, cs) := takeSign cs
  let name := String.ofList (cs.map Char.toLower)
  if name = "inf" ∨ name = "infinity" then some (Double.infinity negative)
  else if name = "nan" then some Double.nan
  else decimal? negative cs

end ConversationSearch.Text

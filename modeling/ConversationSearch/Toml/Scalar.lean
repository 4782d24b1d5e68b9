import ConversationSearch.Text.Decimal
import ConversationSearch.Time.Calendar

/-!
# Words of a TOML text

Truth values, numbers and dates are words without blanks, apart from the blank that may stand
between a date and a time of day. Digits may have underscores between them. Integers are those of
sixty-four bits, in base ten, or in base sixteen, eight or two behind a mark.

A date is kept as its text in the usual form: a capital `T` before the time of day, a capital `Z`
for UTC, and no zeros at the end of a fraction.
-/

namespace ConversationSearch

/-- A value of a TOML text. -/
inductive Toml
  | bool (value : Bool)
  | int (value : Int)
  | real (value : Json.Double)
  | string (text : String)
  | date (text : String)
  | array (items : List Toml)
  | table (members : List (String × Toml))
  deriving Repr, Inhabited

namespace Toml

/-- The characters of a word. -/
def isWordChar (c : Char) : Bool :=
  c.isAlphanum || c == '_' || c == '+' || c == '-' || c == '.' || c == ':'

/-- The digits of a word without the underscores between them. -/
def plainDigits? (isDigit : Char → Bool) : List Char → Option (List Char)
  | [] => none
  | [c] => if isDigit c then some [c] else none
  | c :: '_' :: rest => if isDigit c then (plainDigits? isDigit rest).map (c :: ·) else none
  | c :: rest => if isDigit c then (plainDigits? isDigit rest).map (c :: ·) else none

/-- Decimal digits that do not start with a zero, zero apart. -/
def wholeDigits? (cs : List Char) : Option (List Char) :=
  match plainDigits? Text.isDigit cs with
  | some ('0' :: _ :: _) => none
  | ds => ds

/-- The value of a digit of any base up to sixteen. -/
def baseDigit (c : Char) : Nat :=
  if Text.isDigit c then c.toNat - '0'.toNat else c.toLower.toNat - 'a'.toNat + 10

/-- Whether a character is a digit of the base. -/
def isBaseDigit (base : Nat) (c : Char) : Bool :=
  (Text.isDigit c || ('a' ≤ c.toLower && c.toLower ≤ 'f')) && baseDigit c < base

/-- The number that digits of a base stand for. -/
def baseNumber? (base : Nat) (cs : List Char) : Option Int :=
  (plainDigits? (isBaseDigit base) cs).map fun ds =>
    ((ds.foldl (fun n c => base * n + baseDigit c) 0 : Nat) : Int)

/-- An integer. -/
def integer? (cs : List Char) : Option Int :=
  let n := match cs with
    | '0' :: 'x' :: rest => baseNumber? 16 rest
    | '0' :: 'o' :: rest => baseNumber? 8 rest
    | '0' :: 'b' :: rest => baseNumber? 2 rest
    | cs =>
      let (negative, cs) := Text.takeSign cs
      (wholeDigits? cs).map fun ds => if negative then -(Text.number ds : Int) else Text.number ds
  n.filter Text.fitsWord

/-- The exponent of a float, its letter being taken already. -/
def exponent? (cs : List Char) : Option Int :=
  let (negative, cs) := Text.takeSign cs
  (plainDigits? Text.isDigit cs).map fun ds =>
    if negative then -(Text.number ds : Int) else Text.number ds

/-- A float with a fraction or an exponent, its sign being taken already. -/
def decimal? (negative : Bool) (cs : List Char) : Option Json.Double := do
  let inWhole := fun c => c != '.' && c != 'e' && c != 'E'
  let whole ← wholeDigits? (cs.takeWhile inWhole)
  let (fraction, rest) ← match cs.dropWhile inWhole with
    | '.' :: rest =>
      let inFraction := fun c => c != 'e' && c != 'E'
      (plainDigits? Text.isDigit (rest.takeWhile inFraction)).map (·, rest.dropWhile inFraction)
    | rest => some ([], rest)
  let exponent ← match rest with
    | [] => if fraction.isEmpty then none else some 0
    | _ :: rest => exponent? rest
  return Text.decimalDouble negative (Text.number (whole ++ fraction))
    (exponent - fraction.length)

/-- A float. One that is too large for a double is refused where it is positive. -/
def real? (cs : List Char) : Option Json.Double :=
  let (negative, cs) := Text.takeSign cs
  if cs = "inf".toList then some (Json.Double.infinity negative)
  else if cs = "nan".toList then some Json.Double.nan
  else (decimal? negative cs).filter fun d => d.isFinite || d.isNegative

/-- Exactly the given number of digits, as a number of at most the given size. -/
def takeNumber (width limit : Nat) (cs : List Char) : Option (Nat × List Char) :=
  let ds := cs.take width
  if ds.length = width ∧ ds.all Text.isDigit ∧ Text.number ds ≤ limit then
    some (Text.number ds, cs.drop width)
  else none

/-- The given character. -/
def takeMark (c : Char) : List Char → Option (List Char)
  | [] => none
  | d :: rest => if c = d then some rest else none

/-- A date at the front of a word, in its usual form. -/
def takeDate (cs : List Char) : Option (List Char × List Char) := do
  let (year, cs) ← takeNumber 4 9999 cs
  let cs ← takeMark '-' cs
  let (month, cs) ← takeNumber 2 12 cs
  let cs ← takeMark '-' cs
  let (day, cs) ← takeNumber 2 31 cs
  if (⟨year, month, day⟩ : Time.Date).isReal then
    some (Text.padded 4 year ++ '-' :: Text.padded 2 month ++ '-' :: Text.padded 2 day, cs)
  else none

/-- The digits of a fraction to the nanosecond, without zeros at the end. -/
def fractionText (ds : List Char) : List Char :=
  match ((ds.take 9).reverse.dropWhile (· == '0')).reverse with
  | [] => []
  | ds => '.' :: ds

/-- A time of day at the front of a word, in its usual form. -/
def takeTime (cs : List Char) : Option (List Char × List Char) := do
  let (hour, cs) ← takeNumber 2 23 cs
  let cs ← takeMark ':' cs
  let (minute, cs) ← takeNumber 2 59 cs
  let cs ← takeMark ':' cs
  let (second, cs) ← takeNumber 2 60 cs
  let clock := Text.padded 2 hour ++ ':' :: Text.padded 2 minute ++ ':' :: Text.padded 2 second
  match cs with
  | '.' :: rest =>
    match Text.spanDigits rest with
    | ([], _) => none
    | (ds, rest) => some (clock ++ fractionText ds, rest)
  | cs => some (clock, cs)

/-- An offset that fills the rest of a word, in its usual form. -/
def offset? : List Char → Option (List Char)
  | [] => some []
  | c :: cs =>
    if c = 'Z' ∨ c = 'z' then if cs.isEmpty then some ['Z'] else none
    else if c = '+' ∨ c = '-' then do
      let (hour, cs) ← takeNumber 2 23 cs
      let cs ← takeMark ':' cs
      let (minute, cs) ← takeNumber 2 59 cs
      let sign := if hour = 0 ∧ minute = 0 then '+' else c
      if cs.isEmpty then
        some (sign :: Text.padded 2 hour ++ ':' :: Text.padded 2 minute)
      else none
    else none

/-- A date, a time of day, or both with or without an offset. -/
def date? (cs : List Char) : Option String :=
  match takeDate cs with
  | some (day, []) => some (String.ofList day)
  | some (day, c :: rest) =>
    if c = 'T' ∨ c = 't' ∨ c = ' ' then do
      let (time, rest) ← takeTime rest
      let offset ← offset? rest
      some (String.ofList (day ++ 'T' :: time ++ offset))
    else none
  | none =>
    match takeTime cs with
    | some (time, []) => some (String.ofList time)
    | _ => none

/-- The value of a word. -/
def ofWord (cs : List Char) : Option Toml :=
  if cs = "true".toList then some (.bool true)
  else if cs = "false".toList then some (.bool false)
  else (.int <$> integer? cs) <|> (.real <$> real? cs) <|> (.date <$> date? cs)

/-- The word at the front of a text. A blank between a date and a digit is part of the word. -/
def takeWord (cs : List Char) : List Char × List Char :=
  let word := cs.takeWhile isWordChar
  match cs.dropWhile isWordChar with
  | ' ' :: d :: rest =>
    if word.length = 10 ∧ (takeDate word).isSome ∧ Text.isDigit d then
      (word ++ ' ' :: (d :: rest).takeWhile isWordChar, (d :: rest).dropWhile isWordChar)
    else (word, ' ' :: d :: rest)
  | rest => (word, rest)

end Toml
end ConversationSearch

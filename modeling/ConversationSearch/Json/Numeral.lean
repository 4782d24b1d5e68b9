import ConversationSearch.Json.Reading

/-!
# Numerals

A numeral is the text of a number taken apart. Its digits are gathered into a significand of
sixty-four bits: a digit of the whole part that no longer fits is dropped and counted, a digit of
the fraction that no longer fits ends the gathering. The number is then the significand scaled by
a power of ten, in steps of at most `10 ^ 308`, each step rounded to a double.
-/

namespace ConversationSearch.Json

/-- The text of a number, taken apart. -/
structure Numeral where
  negative : Bool
  whole : List Char
  fraction : Option (List Char)
  exponent : Option (Bool × List Char)
  deriving DecidableEq, Repr

namespace Numeral

/-- The largest significand, `2 ^ 64 - 1`. -/
def maxSignificand : Nat := 18446744073709551615

/-- The largest exponent that is added up, `2 ^ 31 - 1`. -/
def maxExponent : Nat := 2147483647

/-- The magnitude of the least integer, `2 ^ 63`. -/
def leastMagnitude : Nat := 9223372036854775808

/-- The digits that a scan did not find: at the end of the text readers and skippers name it
differently. -/
def missingDigits : List Char → Break
  | [] => ⟨.eofValue, .invalidNumber⟩
  | _ => .of .invalidNumber

/-- Takes the exponent off the front. -/
def scanExponent (numeral : Numeral) : List Char → Except Break (Numeral × List Char)
  | 'e' :: rest => scanDigits rest
  | 'E' :: rest => scanDigits rest
  | rest => .ok (numeral, rest)
where
  /-- The sign and the digits of the exponent. -/
  scanDigits (cs : List Char) : Except Break (Numeral × List Char) :=
    let (raises, cs) := match cs with
      | '+' :: cs => (true, cs)
      | '-' :: cs => (false, cs)
      | cs => (true, cs)
    match Text.spanDigits cs with
    | ([], rest) => .error (missingDigits rest)
    | (ds, rest) => .ok ({ numeral with exponent := some (raises, ds) }, rest)

/-- Takes the fraction and the exponent off the front. -/
def scanFraction (numeral : Numeral) : List Char → Except Break (Numeral × List Char)
  | '.' :: rest =>
    match Text.spanDigits rest with
    | ([], rest) => .error (missingDigits rest)
    | (ds, rest) => scanExponent { numeral with fraction := some ds } rest
  | rest => scanExponent numeral rest

/-- Takes a numeral off the front, its sign being already known. -/
def scan (negative : Bool) (cs : List Char) : Except Break (Numeral × List Char) :=
  match Text.spanDigits cs with
  | ([], rest) => .error (missingDigits rest)
  | ('0' :: _ :: _, _) => .error (.of .invalidNumber)
  | (ds, rest) => scanFraction ⟨negative, ds, none, none⟩ rest

/-- The significand of the whole part and how many of its digits were dropped. -/
def gatherWhole : List Char → Nat → Nat → Nat × Nat
  | [], significand, dropped => (significand, dropped)
  | c :: cs, significand, dropped =>
    let next := 10 * significand + (Text.digitValue? c).getD 0
    if dropped = 0 ∧ next ≤ maxSignificand then gatherWhole cs next 0
    else gatherWhole cs significand (dropped + 1)

/-- The significand with the digits of the fraction added, and how many were. -/
def gatherFraction : List Char → Nat → Nat → Nat × Nat
  | [], significand, added => (significand, added)
  | c :: cs, significand, added =>
    let next := 10 * significand + (Text.digitValue? c).getD 0
    if next ≤ maxSignificand then gatherFraction cs next (added + 1)
    else (significand, added)

/-- Scales by a power of ten; the count of steps is large enough for every significand. -/
def scale : (steps : Nat) → Double → Int → Except Fault Double
  | steps, d, exponent =>
    if exponent.natAbs ≤ 308 then
      let power := Double.tenPower exponent.natAbs
      if 0 ≤ exponent then
        let d := d.mul power
        if d.isFinite then .ok d else .error .numberOutOfRange
      else .ok (d.div power)
    else if d.isZero then .ok d
    else if 0 ≤ exponent then .error .numberOutOfRange
    else match steps with
      | 0 => .ok d
      | steps + 1 => scale steps (d.div (Double.tenPower 308)) (exponent + 308)

/-- The double of a significand and a power of ten. -/
def real (negative : Bool) (significand : Nat) (exponent : Int) : Except Fault Number := do
  let d ← scale 4 (Double.nearest false significand 1) exponent
  return .real (if negative then d.neg else d)

/-- The number that a numeral without a fraction and an exponent stands for. -/
def whole? (negative : Bool) (significand : Nat) : Number :=
  if negative then
    if significand = 0 ∨ leastMagnitude < significand then
      .real (Double.nearest true significand 1)
    else .int (-significand)
  else .int significand

/-- The number that a numeral stands for. -/
def value (n : Numeral) : Except Fault Number :=
  let (significand, dropped) := gatherWhole n.whole 0 0
  let (significand, added) := gatherFraction (n.fraction.getD []) significand 0
  let exponent : Int := dropped - added
  match n.exponent with
  | some (raises, ds) =>
    let e := Text.number ds
    if maxExponent < e then
      if significand ≠ 0 ∧ raises then .error .numberOutOfRange
      else .ok (.real (Double.ofBits n.negative 0))
    else real n.negative significand (if raises then exponent + e else exponent - e)
  | none =>
    if n.fraction.isNone ∧ dropped = 0 then .ok (whole? n.negative significand)
    else real n.negative significand exponent

end Numeral
end ConversationSearch.Json

import ConversationSearch.Json.Decimal
import ConversationSearch.Text.Digits

/-!
# Doubles

A double is kept by its sixty-four bits, so that equality is equality of bits and can be decided.
Its arithmetic is exact arithmetic followed by one rounding, to the nearest double and in a tie to
the one with the even significand.

It has two texts: `text`, positional between `10 ^ -5` and `10 ^ 16` and with an exponent outside,
and `plainText`, always positional and without a fraction for whole numbers.
-/

namespace ConversationSearch.Json

/-- A double, by its bits. -/
structure Double where
  bits : UInt64
  deriving DecidableEq, Repr, Inhabited

namespace Double

/-- The weight of the sign bit, `2 ^ 63`. -/
def signWeight : Nat := 9223372036854775808

/-- The weight of the lowest bit of the exponent, `2 ^ 52`. -/
def exponentWeight : Nat := 4503599627370496

/-- The exponent that infinities have, `2 ^ 11 - 1`. -/
def topExponent : Nat := 2047

/-- The sign bit. -/
def isNegative (d : Double) : Bool :=
  d.bits.toNat / signWeight == 1

/-- The eleven bits of the exponent. -/
def exponentBits (d : Double) : Nat :=
  d.bits.toNat / exponentWeight % (topExponent + 1)

/-- The fifty-two bits of the fraction. -/
def fractionBits (d : Double) : Nat :=
  d.bits.toNat % exponentWeight

/-- Neither an infinity nor not a number. -/
def isFinite (d : Double) : Bool :=
  d.exponentBits != topExponent

/-- Not a number. -/
def isNaN (d : Double) : Bool :=
  !d.isFinite && d.fractionBits != 0

/-- Zero of either sign. -/
def isZero (d : Double) : Bool :=
  d.exponentBits == 0 && d.fractionBits == 0

/-- The magnitude of a finite double is `significand * 2 ^ exponent`. -/
def significand (d : Double) : Nat :=
  if d.exponentBits = 0 then d.fractionBits else exponentWeight + d.fractionBits

/-- The magnitude of a finite double is `significand * 2 ^ exponent`. -/
def exponent (d : Double) : Int :=
  (max d.exponentBits 1 : Nat) - 1075

/-- The numerator of the magnitude of a finite double. -/
def num (d : Double) : Nat :=
  d.significand * Nat.pow 2 d.exponent.toNat

/-- The denominator of the magnitude of a finite double. -/
def den (d : Double) : Nat :=
  Nat.pow 2 (-d.exponent).toNat

/-- The double with the given magnitude bits and sign. -/
def ofBits (negative : Bool) (bits : Nat) : Double :=
  ⟨UInt64.ofNat (if negative then signWeight + bits else bits)⟩

/-- The infinity of the given sign. -/
def infinity (negative : Bool) : Double :=
  ofBits negative (topExponent * exponentWeight)

/-- The value that is not a number. -/
def nan : Double :=
  ofBits false (topExponent * exponentWeight + exponentWeight / 2)

/-- The quotient, rounded to the nearest whole number and in a tie to the even one. -/
def roundEven (num den : Nat) : Nat :=
  let q := num / den
  let r := 2 * (num % den)
  if den < r ∨ (r = den ∧ q % 2 = 1) then q + 1 else q

/-- The double nearest to `num / den`; what lies beyond every double becomes an infinity. -/
def nearest (negative : Bool) (num den : Nat) : Double :=
  if num = 0 then ofBits negative 0
  else
    let guess : Int := (num.log2 : Int) - den.log2
    let short : Bool := num * Nat.pow 2 (-guess).toNat < den * Nat.pow 2 guess.toNat
    let e : Int := max (guess - if short then 53 else 52) (-1074)
    let q := roundEven (num * Nat.pow 2 (-e).toNat) (den * Nat.pow 2 e.toNat)
    let bits :=
      if q < exponentWeight then q
      else (e + 1075).toNat * exponentWeight + (q - exponentWeight)
    if topExponent * exponentWeight ≤ bits then infinity negative else ofBits negative bits

/-- The double nearest to an integer. -/
def ofInt (n : Int) : Double :=
  nearest (n < 0) n.natAbs 1

/-- The double nearest to a power of ten. -/
def tenPower (n : Nat) : Double :=
  nearest false (Nat.pow 10 n) 1

/-- The product of finite doubles, with the sign of the first. -/
def mul (a b : Double) : Double :=
  nearest a.isNegative (a.num * b.num) (a.den * b.den)

/-- The quotient of finite doubles, with the sign of the first. -/
def div (a b : Double) : Double :=
  nearest a.isNegative (a.num * b.den) (a.den * b.num)

/-- The same magnitude with the other sign. -/
def neg (a : Double) : Double :=
  ofBits (!a.isNegative) (a.bits.toNat % signWeight)

/-- The whole number nearest to the magnitude of a finite double, a half going up. -/
def roundHalfUp (d : Double) : Nat :=
  (2 * d.num + d.den) / (2 * d.den)

/-- The shortest decimal that reads back as the magnitude of a finite double. -/
def magnitude (d : Double) : Decimal :=
  if d.isZero then ⟨0, 0⟩
  else (Decimal.Target.of d.significand d.exponent
    (d.fractionBits == 0 && 1 < d.exponentBits)).shortest

/-- The digits with a point after the given number of them, zeros added where digits lack. -/
def positional (digits : List Char) (point : Int) : List Char × List Char :=
  if point ≤ 0 then (['0'], List.replicate (-point).toNat '0' ++ digits)
  else
    let whole := digits.take point.toNat
    (whole ++ List.replicate (point.toNat - whole.length) '0', digits.drop point.toNat)

/-- How many digits of the magnitude stand before the point. -/
def pointOf (d : Double) : Int :=
  if d.isZero then 1
  else (Text.digits d.magnitude.digits).length + d.magnitude.exponent

/-- The text of a finite double: the fewest digits that read back, positional with at least one
place from `10 ^ -5` up to `10 ^ 16`, else with a signed exponent. -/
def text (d : Double) : List Char :=
  let digits := Text.digits d.magnitude.digits
  let point := d.pointOf
  let body :=
    if -4 ≤ point ∧ point ≤ 16 then
      let (whole, places) := positional digits point
      whole ++ '.' :: (if places.isEmpty then ['0'] else places)
    else
      let e := point - 1
      let rest := digits.drop 1
      digits.take 1 ++ (if rest.isEmpty then [] else '.' :: rest) ++
        'e' :: (if e < 0 then '-' else '+') :: Text.digits e.natAbs
  if d.isNegative then '-' :: body else body

/-- The text of a double without an exponent and without a point for whole numbers. -/
def plainText (d : Double) : List Char :=
  if d.isNaN then "NaN".toList
  else
    let body :=
      if d.isFinite then
        let (whole, places) := positional (Text.digits d.magnitude.digits) d.pointOf
        whole ++ (if places.isEmpty then [] else '.' :: places)
      else "inf".toList
    if d.isNegative then '-' :: body else body

end Double
end ConversationSearch.Json

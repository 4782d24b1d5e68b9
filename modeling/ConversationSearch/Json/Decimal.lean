/-!
# The shortest decimal of a binary fraction

A finite double is `significand * 2 ^ exponent`. The decimals that read back as it fill an
interval around it, whose ends belong to it when the significand is even. `shortest` finds the
fewest digits for which some decimal of that many digits lies in the interval, and of the two
neighbours of the double on that decimal grid it takes the nearer.
-/

namespace ConversationSearch.Json

/-- The decimal `digits * 10 ^ exponent`. -/
structure Decimal where
  digits : Nat
  exponent : Int
  deriving DecidableEq, Repr

namespace Decimal

/-- Moves the zeros at the end of the digits into the exponent. -/
def normalize (d : Decimal) : Decimal :=
  if h : d.digits ≠ 0 ∧ d.digits % 10 = 0 then normalize ⟨d.digits / 10, d.exponent + 1⟩
  else d
termination_by d.digits
decreasing_by exact Nat.div_lt_self (Nat.pos_of_ne_zero h.1) (by decide)

/-- The positive rational `num / den` and the ends of the interval that reads back as it. -/
structure Target where
  value : Nat
  low : Nat
  high : Nat
  den : Nat
  closed : Bool

/-- The double `significand * 2 ^ exponent` with the interval around it. Below a power of two the
doubles lie twice as dense, so there the interval is half as wide. -/
def Target.of (significand : Nat) (exponent : Int) (denseBelow : Bool) : Target :=
  let scale := exponent - 2
  let up := Nat.pow 2 scale.toNat
  { value := 4 * significand * up
    low := (4 * significand - (if denseBelow then 1 else 2)) * up
    high := (4 * significand + 2) * up
    den := Nat.pow 2 (-scale).toNat
    closed := significand % 2 == 0 }

/-- Whether `digits * 10 ^ exponent` reads back as the target. -/
def Target.admits (t : Target) (digits : Nat) (exponent : Int) : Bool :=
  let c := digits * Nat.pow 10 exponent.toNat * t.den
  let down := Nat.pow 10 (-exponent).toNat
  if t.closed then t.low * down ≤ c && c ≤ t.high * down
  else t.low * down < c && c < t.high * down

/-- The least power of ten above the target, by its exponent. -/
def Target.magnitude (t : Target) : Int :=
  let guess : Int := ((t.value.log2 : Int) - t.den.log2) * 30103 / 100000
  let above (p : Int) : Bool :=
    t.value * Nat.pow 10 (-p).toNat < Nat.pow 10 p.toNat * t.den
  if above (guess - 1) then guess - 1
  else if above guess then guess
  else if above (guess + 1) then guess + 1
  else guess + 2

/-- The nearer of the two neighbours with the given last place that read back as the target. -/
def Target.onGrid (t : Target) (exponent : Int) : Option Nat :=
  let up := Nat.pow 10 exponent.toNat
  let down := Nat.pow 10 (-exponent).toNat
  let below := t.value * down / (up * t.den)
  match t.admits below exponent, t.admits (below + 1) exponent with
  | true, true =>
    let fromBelow := t.value * down - below * up * t.den
    let toAbove := (below + 1) * up * t.den - t.value * down
    some (if toAbove < fromBelow then below + 1 else below)
  | true, false => some below
  | false, true => some (below + 1)
  | false, false => none

/-- The fewest digits that read back as the target; seventeen always suffice. -/
def Target.shortest (t : Target) : Decimal :=
  let p := t.magnitude
  let onWidth (n : Nat) : Option Decimal :=
    let e := p - n
    (t.onGrid e).map fun c => ⟨c, e⟩
  ((List.range' 1 17).findSome? onWidth).getD ⟨0, 0⟩ |>.normalize

end Decimal
end ConversationSearch.Json

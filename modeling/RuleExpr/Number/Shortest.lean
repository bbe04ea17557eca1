import RuleExpr.Number.Binary

/-!
# Shortest Decimal Digits

The reals that round to a binary value form an interval around it, whose ends belong to it when
the significand is even.  Among the decimals in that interval `shortest` takes one with the fewest
digits, and of two such decimals the one nearer to the value, a tie going up.

Only the two neighbours of the value on a decimal grid have to be tried: if any grid point lies in
the interval, so does one of them.  The grids are tried from coarse to fine.
-/

namespace RuleExpr.Number

-- The powers of the core library, also where another instance is known.
attribute [local instance (high)] instPowNat

/-- A decimal `digits * 10 ^ exponent`. -/
structure DecimalFloat where
  digits : Nat
  exponent : Int
  deriving DecidableEq, Repr

/-- A positive value with the ends of its rounding interval, all over one denominator. -/
structure RoundingInterval where
  value : Nat
  low : Nat
  high : Nat
  denominator : Nat
  closed : Bool
  deriving Repr

namespace RoundingInterval

/-- Interval of the magnitudes that round to `x`.  The gap below a power of two is half the gap
above it, unless the power is the least normal one. -/
def ofScaled (f : Format) (x : Scaled) : RoundingInterval :=
  let below := if x.significand = 2 ^ f.fractionBits ∧ f.leastExponent < x.exponent then 1 else 2
  let scale := 2 ^ (x.exponent - 2).toNat
  { value := 4 * x.significand * scale
    low := (4 * x.significand - below) * scale
    high := (4 * x.significand + 2) * scale
    denominator := 2 ^ (2 - x.exponent).toNat
    closed := x.significand % 2 == 0 }

/-- The multiple of `10 ^ exponent` to print, if a neighbour of the value on that grid lies in the
interval. -/
def onGrid (interval : RoundingInterval) (exponent : Int) : Option Nat :=
  let step := interval.denominator * 10 ^ exponent.toNat
  let scale := 10 ^ (-exponent).toNat
  let down := interval.value * scale / step
  let within (a b : Nat) : Bool := if interval.closed then a ≤ b else a < b
  let downFits := within (interval.low * scale) (down * step)
  let upFits := within ((down + 1) * step) (interval.high * scale)
  let upNearer := step ≤ 2 * (interval.value * scale % step)
  if downFits && !(upFits && upNearer) then some down
  else if upFits then some (down + 1)
  else none

/-- First grid with a hit among `10 ^ exponent` and the finer ones. -/
def search (interval : RoundingInterval) : Nat → Int → DecimalFloat
  | 0, exponent =>
    ⟨interval.value * 10 ^ (-exponent).toNat / (interval.denominator * 10 ^ exponent.toNat),
      exponent⟩
  | tries + 1, exponent =>
    match interval.onGrid exponent with
    | some digits => ⟨digits, exponent⟩
    | none => search interval tries (exponent - 1)

/-- Exponent of a grid on which the value is less than one step. -/
def coarsest (interval : RoundingInterval) : Int :=
  if interval.denominator ≤ interval.value then
    (Nat.toDigits 10 (interval.value / interval.denominator)).length
  else
    1 - (Nat.toDigits 10 (interval.denominator / interval.value)).length

end RoundingInterval

/-- Shortest decimal that rounds to the positive magnitude `x`.  Twenty grids always suffice, as
seventeen digits tell any two doubles apart. -/
def shortest (f : Format) (x : Scaled) : DecimalFloat :=
  let interval := RoundingInterval.ofScaled f x
  interval.search 20 interval.coarsest

end RuleExpr.Number

import RuleExpr.Number.Binary
import RuleExpr.Number.Decimal.Basic

/-!
# Decimals and Floating Point

A decimal becomes a double through its whole part and its fraction, which are converted apart, and
the sum is rounded back to the places of the decimal.

A binary value becomes a decimal by trading factors of two for factors of ten in a 96-bit
mantissa.  Places beyond the bounds are given up first, then those that a value of the format
cannot tell apart, and then zeros at the end of the fraction.
-/

namespace RuleExpr.Number

-- The powers of the core library, also where another instance is known.
attribute [local instance (high)] instPowNat

namespace Decimal

/-- Power by repeated squaring, each product rounded.  `bits` is at least the number of binary
digits of the exponent. -/
def power : Nat → Double → Nat → Double → Double
  | 0, _, _, result => result
  | bits + 1, base, exponent, result =>
    let result := if exponent % 2 = 1 then result.mul base else result
    if exponent / 2 = 0 then result
    else power bits (base.mul base) (exponent / 2) result

/-- Double near a decimal.  A decimal without places is converted as a whole number, so that its
zero has no sign. -/
def toDouble (x : Decimal) : Double :=
  if x.scale = 0 then .ofInt x.signedMantissa
  else
    let divisor := 10 ^ x.scale
    let whole : Double := .ofInt (x.mantissa / divisor)
    let fraction := (Binary.ofInt (x.mantissa % divisor) : Double).div (.ofInt divisor)
    let magnitude :=
      if fraction.eq .zero then whole
      else
        let shift := power 8 (.ofInt 10) x.scale (.ofInt 1)
        (((whole.add fraction).mul shift).roundHalfAway).div shift
    if x.negative then magnitude.neg else magnitude

/-- A mantissa with the power of ten it counts and the power of five still owed: the number meant
is `mantissa * 10 ^ tens * 5 ^ (-fives)`. -/
structure Trade where
  mantissa : Nat
  tens : Int
  fives : Int
  deriving DecidableEq, Repr

namespace Trade

/-- Pays the fives owed by a value with a negative binary exponent. -/
def payFives : Nat → Trade → Trade
  | 0, t => t
  | steps + 1, t =>
    if t.fives ≤ 0 then t
    else if t.mantissa % 2 = 0 then
      payFives steps ⟨t.mantissa / 2, t.tens + 1, t.fives - 1⟩
    else if t.mantissa * 5 < limit then
      payFives steps ⟨t.mantissa * 5, t.tens, t.fives - 1⟩
    else
      payFives steps ⟨t.mantissa / 2, t.tens + 1, t.fives - 1⟩

/-- Removes the fives in excess of a value with a positive binary exponent. -/
def takeFives : Nat → Trade → Option Trade
  | 0, t => some t
  | steps + 1, t =>
    if 0 ≤ t.fives then some t
    else if t.mantissa < 2 ^ (95 : Nat) then
      takeFives steps ⟨t.mantissa * 2, t.tens - 1, t.fives + 1⟩
    else if -t.fives < 2 * t.tens then none
    else takeFives steps ⟨t.mantissa / 5, t.tens, t.fives + 1⟩

/-- Multiplies a positive power of ten into the mantissa. -/
def expandTens : Nat → Trade → Option Trade
  | 0, t => some t
  | steps + 1, t =>
    if t.tens ≤ 0 then some t
    else if t.mantissa * 10 < limit then
      expandTens steps { t with mantissa := t.mantissa * 10, tens := t.tens - 1 }
    else none

/-- Gives up the last place, half up on that digit. -/
def dropPlace (t : Trade) : Trade :=
  let up := if 5 ≤ t.mantissa % 10 then 1 else 0
  { t with mantissa := t.mantissa / 10 + up, tens := t.tens + 1 }

/-- Gives up the places beyond the largest scale; what is left of nothing is zero. -/
def boundScale : Nat → Trade → Trade
  | 0, t => t
  | steps + 1, t =>
    if -(maxScale : Int) ≤ t.tens then t
    else if t.mantissa / 10 = 0 then boundScale steps ⟨0, 0, t.fives⟩
    else boundScale steps t.dropPlace

/-- Gives up the places that a mantissa of `precision` cannot tell apart. -/
def boundPrecision (precision : Nat) : Nat → Trade → Trade
  | 0, t => t
  | steps + 1, t =>
    if t.tens < 0 ∧ precision ≤ t.mantissa then boundPrecision precision steps t.dropPlace
    else t

/-- Drops zeros at the end of the fraction. -/
def dropZeros : Nat → Trade → Trade
  | 0, t => t
  | steps + 1, t =>
    if t.tens < 0 ∧ t.mantissa % 10 = 0 then
      dropZeros steps { t with mantissa := t.mantissa / 10, tens := t.tens + 1 }
    else t

end Trade

/-- Significands from here on have more digits than the format tells apart. -/
def precisionOf (f : Format) : Nat :=
  if f = Format.single then 2 ^ (24 : Nat) else 2 ^ (52 : Nat)

def ofScaled (f : Format) (negative : Bool) (x : Scaled) : Option Decimal := do
  let steps := 2 * x.exponent.natAbs + 64
  let start : Trade := ⟨x.significand, x.exponent, -x.exponent⟩
  let paid ← (start.payFives steps).takeFives steps
  let whole ← paid.expandTens steps
  let places := (whole.boundScale steps).boundPrecision (precisionOf f) steps
  let trimmed := places.dropZeros steps
  ofParts? negative trimmed.mantissa (-trimmed.tens).toNat

/-- Decimal near a binary value; `none` for what is not finite or is out of bounds.  A zero keeps
its sign, also one that is left of a value too small to be told from it. -/
def ofBinary {f : Format} (x : Binary f) : Option Decimal :=
  match x.decode with
  | .finite negative magnitude =>
    if magnitude.significand = 0 then ofParts? negative 0 0
    else ofScaled f negative magnitude
  | _ => none

end Decimal

end RuleExpr.Number

/-!
# Bounded Decimals

A decimal is a sign, a mantissa below `2 ^ 96` and a scale of at most 28 places; its number is the
mantissa divided by ten to the scale.  The scale is part of the value: `1.0` and `1.00` are the
same number and different decimals.  A zero carries a sign only if it was negated or is what
rounding left of a long product or of a literal with an exponent.

`fit` brings an exact result back into these bounds by giving up places, rounding half to even.
-/

namespace RuleExpr.Number

-- The powers of the core library, also where another instance is known.
attribute [local instance (high)] instPowNat

structure Decimal where
  negative : Bool
  mantissa : Nat
  scale : Nat
  mantissa_lt : mantissa < 2 ^ (96 : Nat)
  scale_le : scale ≤ 28
  deriving DecidableEq, Repr

namespace Decimal

/-- Exclusive bound of the mantissas. -/
def limit : Nat := 2 ^ (96 : Nat)

/-- Largest number of places behind the point. -/
def maxScale : Nat := 28

/-- The decimal with these parts, if they are in bounds. -/
def ofParts? (negative : Bool) (mantissa scale : Nat) : Option Decimal :=
  if h : mantissa < 2 ^ (96 : Nat) ∧ scale ≤ 28 then some ⟨negative, mantissa, scale, h.1, h.2⟩
  else none

/-- As `ofParts?`, but a zero loses its sign. -/
def ofSigned? (negative : Bool) (mantissa scale : Nat) : Option Decimal :=
  ofParts? (negative && mantissa != 0) mantissa scale

def zero : Decimal := ⟨false, 0, 0, by decide, by decide⟩

def ofInt? (value : Int) : Option Decimal :=
  ofSigned? (decide (value < 0)) value.natAbs 0

def neg (x : Decimal) : Decimal := { x with negative := !x.negative }

def abs (x : Decimal) : Decimal := { x with negative := false }

def isZero (x : Decimal) : Bool := x.mantissa == 0

/-- `x`, but a zero loses its sign. -/
def withoutZeroSign (x : Decimal) : Decimal :=
  { x with negative := x.negative && x.mantissa != 0 }

/-- One unit in the last place of `x`. -/
def ulp (x : Decimal) : Decimal :=
  { x with negative := false, mantissa := 1, mantissa_lt := by decide }

/-- Mantissa with its sign. -/
def signedMantissa (x : Decimal) : Int :=
  if x.negative then -(x.mantissa : Int) else x.mantissa

/-- Number of units of `10 ^ -scale` in `x`, exact when `x.scale ≤ scale`. -/
def unitsAt (x : Decimal) (scale : Nat) : Int :=
  x.signedMantissa * 10 ^ (scale - x.scale)

/-- Order of the numbers denoted. -/
def compare (x y : Decimal) : Ordering :=
  let scale := max x.scale y.scale
  Ord.compare (x.unitsAt scale) (y.unitsAt scale)

def eq (x y : Decimal) : Bool := x.compare y == .eq

def gt (x y : Decimal) : Bool := x.compare y == .gt

def le (x y : Decimal) : Bool := x.compare y != .gt

/-- The number without what stands behind its point. -/
def truncate (x : Decimal) : Int :=
  let whole := x.mantissa / 10 ^ x.scale
  if x.negative then -(whole : Int) else whole

/-- Quotient rounded to a natural number, a tie going to the even one.  A set `sticky` says that
the numerator was cut off. -/
def roundHalfEven (numerator denominator : Nat) (sticky : Bool) : Nat :=
  let quotient := numerator / denominator
  let twice := 2 * (numerator % denominator)
  if denominator < twice || (twice == denominator && (sticky || quotient % 2 == 1)) then
    quotient + 1
  else
    quotient

/-- Fewest last digits of `mantissa` to drop so that the rest is in bounds. -/
def excessDigits (mantissa : Nat) : Nat :=
  if mantissa < limit then 0 else excessDigits (mantissa / 10) + 1
termination_by mantissa
decreasing_by
  have : 0 < limit := by decide
  omega

/-- A rounded mantissa and its scale as a decimal.  A mantissa that was rounded up to the limit
gives up one more place. -/
def settle (negative : Bool) (mantissa scale : Nat) : Option Decimal :=
  if mantissa < limit then ofParts? negative mantissa scale
  else if scale = 0 then none
  else ofParts? negative (roundHalfEven mantissa 10 false) (scale - 1)

/-- The decimal nearest to `mantissa` units of `10 ^ -scale` that keeps as many places as the
bounds allow; `none` when its whole part is out of bounds.  The sign is kept even when nothing else
is left. -/
def fit (negative : Bool) (mantissa scale : Nat) : Option Decimal :=
  let drop := max (excessDigits mantissa) (scale - maxScale)
  if scale < drop then none
  else settle negative (roundHalfEven mantissa (10 ^ drop) false) (scale - drop)

end Decimal

end RuleExpr.Number

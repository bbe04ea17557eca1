import RuleExpr.Number.Decimal.Basic

/-!
# Decimal Arithmetic

Sums and products are exact and then fitted into the bounds.  A quotient is developed up to nine
digits at a time until it is exact or has no room left, and the zeros that this development left
at its end are dropped in groups.  A remainder by a long divisor is found word by word, with an
estimate of each quotient word that can overflow.  Every operation is `none` when its result is out
of bounds.
-/

namespace RuleExpr.Number.Decimal

-- The powers of the core library, also where another instance is known.
attribute [local instance (high)] instPowNat

/-- A zero operand leaves the other one as it is, scale included. -/
def add (x y : Decimal) : Option Decimal :=
  if x.isZero then some y
  else if y.isZero then some x
  else
    let scale := max x.scale y.scale
    let sum := x.unitsAt scale + y.unitsAt scale
    fit (decide (sum < 0)) sum.natAbs scale

def sub (x y : Decimal) : Option Decimal :=
  if x.isZero && y.isZero then some y else add x y.neg

/-- Whether the mantissa takes one word of 32 bits. -/
def isNarrow (x : Decimal) : Bool := x.mantissa < 2 ^ (32 : Nat)

/-- Product.  When both factors are narrow, one that lies more than 47 places behind the point is
the plain zero, and one that is rounded to zero has no sign. -/
def mul (x y : Decimal) : Option Decimal :=
  let product := fit (x.negative != y.negative) (x.mantissa * y.mantissa) (x.scale + y.scale)
  if x.isZero || y.isZero then some zero
  else if x.isNarrow && y.isNarrow then
    if 47 < x.scale + y.scale then some zero else product.map withoutZeroSign
  else product

/-- A quotient under development: `quotient` with `scale` places, which may still be negative, and
the remainder that is left. -/
structure LongDivision where
  quotient : Nat
  remainder : Nat
  scale : Int
  deriving DecidableEq, Repr

namespace LongDivision

/-- Most digits, up to `most`, that the quotient can take and stay in bounds. -/
def room (quotient : Nat) : Nat → Nat
  | 0 => 0
  | most + 1 => if quotient * 10 ^ (most + 1) < limit then most + 1 else room quotient most

/-- Develops `digits` further digits. -/
def extend (divisor : Nat) (s : LongDivision) (digits : Nat) : LongDivision :=
  let dividend := s.remainder * 10 ^ digits
  ⟨s.quotient * 10 ^ digits + dividend / divisor, dividend % divisor, s.scale + digits⟩

/-- Rounds the quotient on what is left of the remainder, and gives up a place if that takes it
out of bounds. -/
def finish (divisor : Nat) (s : LongDivision) : Option (Nat × Nat) :=
  let twice := 2 * s.remainder
  let quotient :=
    if divisor < twice || (twice == divisor && s.quotient % 2 == 1) then s.quotient + 1
    else s.quotient
  if quotient < limit then some (quotient, s.scale.toNat)
  else if s.scale ≤ 0 then none
  else some (roundHalfEven quotient 10 false, (s.scale - 1).toNat)

/-- Gives up the last place of a quotient that grew out of bounds. -/
def shrink (s : LongDivision) : Option (Nat × Nat) :=
  if s.scale ≤ 0 then none
  else some (roundHalfEven s.quotient 10 (s.remainder != 0), (s.scale - 1).toNat)

/-- Mantissa and scale of the quotient, and whether digits had to be developed.  Each round adds
at least one place, so a round for every place between the least and the largest scale is
enough. -/
def run (divisor : Nat) : Nat → LongDivision → Bool → Option (Nat × Nat × Bool)
  | 0, _, _ => none
  | rounds + 1, s, developed =>
    let continue_ (digits : Nat) (developed : Bool) : Option (Nat × Nat × Bool) :=
      if limit ≤ s.quotient * 10 ^ digits then none
      else
        let next := s.extend divisor digits
        if next.quotient < limit then run divisor rounds next developed
        else next.shrink.map fun (mantissa, scale) => (mantissa, scale, developed)
    if s.remainder = 0 then
      if 0 ≤ s.scale then some (s.quotient, s.scale.toNat, developed)
      else continue_ (min 9 (-s.scale).toNat) developed
    else
      let digits := room s.quotient (min 9 (maxScale - s.scale).toNat)
      if digits < 9 ∧ s.scale + digits < 0 then none
      else if digits = 0 then
        (s.finish divisor).map fun (mantissa, scale) => (mantissa, scale, true)
      else continue_ digits true

end LongDivision

/-- Drops `digits` zeros at the end when there are that many places, the mantissa has the factor
`2 ^ twos`, and it ends in that many zeros. -/
def stripGroup (twos digits : Nat) (x : Nat × Nat) : Nat × Nat :=
  if x.1 % 2 ^ twos = 0 ∧ digits ≤ x.2 ∧ x.1 % 10 ^ digits = 0 then
    (x.1 / 10 ^ digits, x.2 - digits)
  else
    x

/-- Drops zeros at the end in groups of eight, then once four, once two and once one. -/
def stripZeros (x : Nat × Nat) : Nat × Nat :=
  stripGroup 1 1 <| stripGroup 2 2 <| stripGroup 4 4 <|
    stripGroup 32 8 <| stripGroup 32 8 <| stripGroup 32 8 x

/-- Quotient; the divisor is not zero. -/
def div (x y : Decimal) : Option Decimal :=
  if x.isZero then some zero
  else do
    let start : LongDivision :=
      ⟨x.mantissa / y.mantissa, x.mantissa % y.mantissa, (x.scale : Int) - y.scale⟩
    let (mantissa, scale, developed) ← start.run y.mantissa 64 false
    let (mantissa, scale) := if developed then stripZeros (mantissa, scale) else (mantissa, scale)
    ofSigned? (x.negative != y.negative) mantissa scale

/-- Words of 32 bits that make up `value` below `2 ^ (32 * count)`, most significant first. -/
def wordsOf (value : Nat) : Nat → List Nat
  | 0 => []
  | count + 1 => value / 2 ^ (32 * count) % 2 ^ (32 : Nat) :: wordsOf value count

/-- One step of the long division by a divisor of exactly 96 bits: takes the next word of the
dividend behind the remainder so far.  The quotient word is estimated from the top word of the
divisor; when the top word of the remainder is equal to it, the estimate overflows and the top word
is lost. -/
def remainderStep (divisor remainder word : Nat) : Nat :=
  let dividend := remainder * 2 ^ (32 : Nat) + word
  if remainder / 2 ^ (64 : Nat) = divisor / 2 ^ (64 : Nat) then dividend % limit % divisor
  else dividend % divisor

/-- Remainder of a long division in words of 32 bits, the divisor having between 64 and 96 bits.
Both sides are first scaled by the power of two that gives the divisor its full length.  Eight words
hold every scaled dividend. -/
def longRemainder (dividend divisor : Nat) : Nat :=
  let factor := 2 ^ (95 - divisor.log2)
  (wordsOf (dividend * factor) 8).foldl (remainderStep (divisor * factor)) 0 / factor

/-- Remainder of mantissas at one scale. -/
def remainderOf (dividend divisor : Nat) : Nat :=
  if divisor < 2 ^ (64 : Nat) then dividend % divisor else longRemainder dividend divisor

/-- Remainder of the truncated quotient, with the sign of `x`; the divisor is not zero. -/
def rem (x y : Decimal) : Option Decimal :=
  if x.isZero then some zero
  else
    match x.abs.compare y.abs with
    | .eq => some zero
    | .lt => some x
    | .gt =>
      let scale := max x.scale y.scale
      ofSigned? x.negative
        (remainderOf (x.abs.unitsAt scale).toNat (y.abs.unitsAt scale).toNat) scale

end RuleExpr.Number.Decimal

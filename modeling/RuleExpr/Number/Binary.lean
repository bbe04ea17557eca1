/-!
# Binary Floating Point

A binary format is a width of the stored fraction and a width of the exponent field.  A finite
datum is a whole number of units of a power of two, so sums, products and remainders of finite
data are exact integers in some unit, and a quotient is a fraction of natural numbers.  Every
operation therefore computes exactly and then rounds once: `Format.round` gives the bits of the
datum nearest to a fraction, a tie going to the even one.

A value keeps its bits.  The sign of what is not a number is part of it, because two such values
count as equal when their bits agree: an operation that has no numeric answer yields the negative
one, and an operation on an operand that is not a number passes that operand on.
-/

namespace RuleExpr.Number

-- The powers of the core library, also where another instance is known.
attribute [local instance (high)] instPowNat

structure Format where
  fractionBits : Nat
  exponentBits : Nat
  deriving DecidableEq, Repr

namespace Format

def double : Format := ⟨52, 11⟩

def single : Format := ⟨23, 8⟩

def width (f : Format) : Nat :=
  1 + f.exponentBits + f.fractionBits

/-- Exponent of the unit of the smallest positive datum. -/
def leastExponent (f : Format) : Int :=
  2 - 2 ^ (f.exponentBits - 1) - f.fractionBits

/-- Bits of positive infinity, which are also the first past the finite magnitudes. -/
def infinityBits (f : Format) : Nat :=
  (2 ^ f.exponentBits - 1) * 2 ^ f.fractionBits

def signBit (f : Format) : Nat :=
  2 ^ (f.exponentBits + f.fractionBits)

/-- Bits of the positive datum that is not a number. -/
def quietBits (f : Format) : Nat :=
  f.infinityBits + 2 ^ (f.fractionBits - 1)

end Format

/-- A magnitude of `significand` units of `2 ^ exponent`. -/
structure Scaled where
  significand : Nat
  exponent : Int
  deriving DecidableEq, Repr

namespace Scaled

def numerator (x : Scaled) : Nat := x.significand * 2 ^ x.exponent.toNat

def denominator (x : Scaled) : Nat := 2 ^ (-x.exponent).toNat

/-- Largest whole number not above the magnitude. -/
def floor (x : Scaled) : Nat := x.numerator / x.denominator

/-- Number of units of `2 ^ unit` in the magnitude, exact when `unit ≤ x.exponent`. -/
def inUnit (x : Scaled) (unit : Int) : Nat :=
  x.significand * 2 ^ (x.exponent - unit).toNat

end Scaled

/-- What the bits of a value stand for. -/
inductive Datum where
  | finite (negative : Bool) (magnitude : Scaled)
  | infinite (negative : Bool)
  | notANumber (negative : Bool)
  deriving DecidableEq, Repr

namespace Datum

/-- The number without what stands behind its point; `none` unless finite. -/
def truncate? : Datum → Option Int
  | .finite true x => some (-(x.floor : Int))
  | .finite false x => some x.floor
  | _ => none

/-- The number without what stands behind its point, held within `low` and `high`; zero for what
is not a number. -/
def clamp (low high : Int) : Datum → Int
  | .finite true x => max low (-(x.floor : Int))
  | .finite false x => min high x.floor
  | .infinite true => low
  | .infinite false => high
  | .notANumber _ => 0

end Datum

namespace Format

def decode (f : Format) (bits : Nat) : Datum :=
  let negative := decide (f.signBit ≤ bits)
  let field := bits % f.signBit / 2 ^ f.fractionBits
  let fraction := bits % 2 ^ f.fractionBits
  if field = 2 ^ f.exponentBits - 1 then
    if fraction = 0 then .infinite negative else .notANumber negative
  else if field = 0 then
    .finite negative ⟨fraction, f.leastExponent⟩
  else
    .finite negative ⟨2 ^ f.fractionBits + fraction, f.leastExponent + (field - 1 : Nat)⟩

/-- Quotient of `numerator / denominator` by `2 ^ exponent`, rounded to a natural number, a tie
going to the even one. -/
def roundedQuotient (numerator denominator : Nat) (exponent : Int) : Nat :=
  let numerator := numerator * 2 ^ (-exponent).toNat
  let denominator := denominator * 2 ^ exponent.toNat
  let quotient := numerator / denominator
  let twice := 2 * (numerator % denominator)
  if denominator < twice || (twice == denominator && quotient % 2 == 1) then
    quotient + 1
  else
    quotient

/-- Exponent of the unit in which `numerator / denominator` has a full significand, or the least
exponent of the format if that is larger. -/
def unitExponent (f : Format) (numerator denominator : Nat) : Int :=
  let guess : Int := (numerator.log2 : Int) - denominator.log2 - f.fractionBits - 1
  let full : Int :=
    if numerator * 2 ^ (-guess).toNat < denominator * 2 ^ guess.toNat * 2 ^ (f.fractionBits + 1)
    then guess else guess + 1
  max full f.leastExponent

/-- Bits of the magnitude nearest to `numerator / denominator`; infinity when that is too large.
A significand that rounds up to the next power of two carries into the exponent field. -/
def round (f : Format) (numerator denominator : Nat) : Nat :=
  let exponent := f.unitExponent numerator denominator
  let bits := (exponent - f.leastExponent).toNat * 2 ^ f.fractionBits +
    roundedQuotient numerator denominator exponent
  if numerator = 0 then 0 else min bits f.infinityBits

end Format

structure Binary (f : Format) where
  bits : BitVec f.width
  deriving DecidableEq

abbrev Double := Binary Format.double

abbrev Single := Binary Format.single

namespace Binary

variable {f : Format}

def decode (x : Binary f) : Datum := f.decode x.bits.toNat

def isNaN (x : Binary f) : Bool :=
  match x.decode with
  | .notANumber _ => true
  | _ => false

def isInfinite (x : Binary f) : Bool :=
  match x.decode with
  | .infinite _ => true
  | _ => false

def isFinite (x : Binary f) : Bool :=
  match x.decode with
  | .finite _ _ => true
  | _ => false

/-- Value with the given sign and the given bits behind it. -/
def ofMagnitude (negative : Bool) (bits : Nat) : Binary f :=
  ⟨BitVec.ofNat _ (if negative then f.signBit + bits else bits)⟩

def zero : Binary f := ofMagnitude false 0

def nan : Binary f := ofMagnitude false f.quietBits

/-- Answer of an operation that has no numeric answer. -/
def undefined : Binary f := ofMagnitude true f.quietBits

def infinity (negative : Bool) : Binary f := ofMagnitude negative f.infinityBits

/-- Nearest value to a fraction of natural numbers, with a sign. -/
def ofFraction (negative : Bool) (numerator denominator : Nat) : Binary f :=
  ofMagnitude negative (f.round numerator denominator)

def ofScaled (negative : Bool) (x : Scaled) : Binary f :=
  ofFraction negative x.numerator x.denominator

def ofInt (value : Int) : Binary f :=
  ofFraction (decide (value < 0)) value.natAbs 1

/-- The value in another format; what is not a number keeps its sign. -/
def convert {g : Format} (x : Binary f) : Binary g :=
  match x.decode with
  | .finite negative magnitude => ofScaled negative magnitude
  | .infinite negative => infinity negative
  | .notANumber negative => ofMagnitude negative g.quietBits

def neg (x : Binary f) : Binary f := ⟨x.bits ^^^ BitVec.ofNat _ f.signBit⟩

def abs (x : Binary f) : Binary f := ofMagnitude false (x.bits.toNat % f.signBit)

/-- Signed number of units of `2 ^ unit`. -/
def signedUnits (negative : Bool) (x : Scaled) (unit : Int) : Int :=
  if negative then -(x.inUnit unit : Int) else x.inUnit unit

def add (x y : Binary f) : Binary f :=
  match x.decode, y.decode with
  | .notANumber _, _ => x
  | _, .notANumber _ => y
  | .infinite s, .infinite t => if s = t then x else undefined
  | .infinite _, .finite _ _ => x
  | .finite _ _, .infinite _ => y
  | .finite s a, .finite t b =>
    let unit := min a.exponent b.exponent
    let sum := signedUnits s a unit + signedUnits t b unit
    -- A zero sum is negative only when both operands are.
    let negative := if sum = 0 then s && t else decide (sum < 0)
    ofScaled negative ⟨sum.natAbs, unit⟩

/-- Subtraction adds the negated operand, except that an operand that is not a number is passed
on as it is. -/
def sub (x y : Binary f) : Binary f :=
  if x.isNaN then x else if y.isNaN then y else add x y.neg

def mul (x y : Binary f) : Binary f :=
  match x.decode, y.decode with
  | .notANumber _, _ => x
  | _, .notANumber _ => y
  | .infinite s, .infinite t => infinity (s != t)
  | .infinite s, .finite t b => if b.significand = 0 then undefined else infinity (s != t)
  | .finite s a, .infinite t => if a.significand = 0 then undefined else infinity (s != t)
  | .finite s a, .finite t b =>
    ofScaled (s != t) ⟨a.significand * b.significand, a.exponent + b.exponent⟩

def div (x y : Binary f) : Binary f :=
  match x.decode, y.decode with
  | .notANumber _, _ => x
  | _, .notANumber _ => y
  | .infinite _, .infinite _ => undefined
  | .infinite s, .finite t _ => infinity (s != t)
  | .finite s _, .infinite t => ofMagnitude (s != t) 0
  | .finite s a, .finite t b =>
    if b.significand = 0 then
      if a.significand = 0 then undefined else infinity (s != t)
    else
      ofFraction (s != t) (a.numerator * b.denominator) (a.denominator * b.numerator)

/-- Remainder of the truncated quotient: it has the sign of `x` and is exact. -/
def rem (x y : Binary f) : Binary f :=
  match x.decode, y.decode with
  | .notANumber _, _ => x
  | _, .notANumber _ => y
  | .infinite _, _ => undefined
  | .finite _ _, .infinite _ => x
  | .finite s a, .finite _ b =>
    if b.significand = 0 then undefined
    else
      let unit := min a.exponent b.exponent
      ofScaled s ⟨a.inUnit unit % b.inUnit unit, unit⟩

/-- Order of two numbers: zeros of both signs are equal, and what is not a number is
incomparable. -/
def compare? (x y : Binary f) : Option Ordering :=
  match x.decode, y.decode with
  | .notANumber _, _ => none
  | _, .notANumber _ => none
  | .infinite s, .infinite t => some (compare t s)
  | .infinite s, .finite _ _ => some (if s then .lt else .gt)
  | .finite _ _, .infinite t => some (if t then .gt else .lt)
  | .finite s a, .finite t b =>
    let unit := min a.exponent b.exponent
    some (compare (signedUnits s a unit) (signedUnits t b unit))

/-- Equality of numbers, which what is not a number never satisfies. -/
def eq (x y : Binary f) : Bool := x.compare? y == some .eq

def gt (x y : Binary f) : Bool := x.compare? y == some .gt

def le (x y : Binary f) : Bool := (x.compare? y).any (· != .gt)

/-- Nearest whole number, a half going away from zero. -/
def roundHalfAway (x : Binary f) : Binary f :=
  match x.decode with
  | .finite negative m =>
    ofFraction negative ((2 * m.numerator + m.denominator) / (2 * m.denominator)) 1
  | _ => x

/-- Largest finite value. -/
def greatest : Binary f := ofMagnitude false (f.infinityBits - 1)

/-- Gap from the magnitude of `x` to its neighbour away from zero; for the greatest value, to its
neighbour towards zero. -/
def ulp (x : Binary f) : Binary f :=
  if x.isNaN then nan
  else if x.isInfinite then infinity false
  else if x.abs = greatest then x.abs.sub ⟨x.abs.bits - 1⟩
  else (⟨x.abs.bits + 1⟩ : Binary f).sub x.abs

end Binary

end RuleExpr.Number

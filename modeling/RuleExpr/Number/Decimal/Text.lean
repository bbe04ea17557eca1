import RuleExpr.Number.Decimal.Arithmetic
import RuleExpr.Number.Numeral

/-!
# Text of Decimals

A decimal is written with exactly as many digits behind the point as its scale.  Reading keeps the
places that are written as long as they fit and rounds on the first one that does not, half up on
that digit alone; behind it only digits and underscores may follow.  An exponent of at most 28 moves
the point, and places that leave the bounds of the scale are rounded in the same way.
-/

namespace RuleExpr.Number.Decimal

-- The powers of the core library, also where another instance is known.
attribute [local instance (high)] instPowNat

def render (x : Decimal) : String :=
  let digits := digitsOf x.mantissa
  let digits := List.replicate (x.scale + 1 - digits.length) '0' ++ digits
  let whole := digits.take (digits.length - x.scale)
  let fraction := digits.drop (digits.length - x.scale)
  (if x.negative then "-" else "") ++ String.ofList whole ++
    (if x.scale = 0 then "" else "." ++ String.ofList fraction)

/-- What has been read of an unsigned decimal. -/
structure Reading where
  mantissa : Nat
  scale : Nat
  pointSeen : Bool
  digitSeen : Bool
  deriving DecidableEq, Repr

namespace Reading

/-- Ends the reading at a digit that no longer fits.  The digits behind it have no weight, but the
rest of the text has to be digits and underscores. -/
def roundOn (r : Reading) (digit : Nat) (rest : List Char) : Option (Nat × Nat) :=
  if !rest.all (fun c => c.isDigit || c = '_') then none
  else if digit < 5 then some (r.mantissa, r.scale)
  else if r.mantissa + 1 < limit then some (r.mantissa + 1, r.scale)
  else if r.scale = 0 then none
  else some ((r.mantissa + 5) / 10, r.scale - 1)

/-- Whether the mantissa without its last digit lies below the bound up to which digits are gathered
in one word of 64 bits. -/
def isShort (r : Reading) : Bool := r.mantissa / 10 < 1844674407370954906

/-- Mantissa and scale of the rest of the text.  Underscores are skipped, with one exception: when
all places are taken and the mantissa is short, an underscore stands for the digit 0 to round
on. -/
def run (r : Reading) : List Char → Option (Nat × Nat)
  | [] => if r.digitSeen then some (r.mantissa, r.scale) else none
  | c :: rest =>
    if c.isDigit then
      let mantissa := r.mantissa * 10 + digitValue c
      if r.pointSeen ∧ r.scale = maxScale then r.roundOn (digitValue c) rest
      else if mantissa < limit then
        run ⟨mantissa, if r.pointSeen then r.scale + 1 else r.scale, r.pointSeen, true⟩ rest
      else if r.pointSeen then r.roundOn (digitValue c) rest
      else none
    else if c = '.' ∧ !r.pointSeen then run { r with pointSeen := true } rest
    else if c = '_' ∧ r.digitSeen then
      if r.scale = maxScale ∧ r.isShort then r.roundOn 0 rest else run r rest
    else none

end Reading

/-- Reads a decimal without exponent. -/
def readPlain (text : List Char) : Option Decimal := do
  let (negative, rest) := splitSign text
  let (mantissa, scale) ← (⟨0, 0, false, false⟩ : Reading).run rest
  ofSigned? negative mantissa scale

/-- Drops zeros at the end of the fraction, at most `places` of them. -/
def trimFraction : Nat → Nat × Nat → Nat × Nat
  | 0, x => x
  | places + 1, (mantissa, scale) =>
    if scale ≠ 0 ∧ mantissa % 10 = 0 then trimFraction places (mantissa / 10, scale - 1)
    else (mantissa, scale)

/-- The decimal with its point moved `exponent` places to the right. -/
def shiftRight (x : Decimal) (exponent : Nat) : Option Decimal :=
  if exponent ≤ x.scale then ofParts? x.negative x.mantissa (x.scale - exponent)
  else if maxScale < exponent then none
  else do
    let power ← ofInt? (10 ^ exponent)
    let product ← x.mul power
    let (mantissa, scale) := trimFraction maxScale (product.mantissa, product.scale)
    ofParts? product.negative mantissa scale

/-- The decimal with its point moved `exponent` places to the left.  Places beyond the largest scale
are given up, half up on the first of them, and the sign is kept even when nothing else is left. -/
def shiftLeft (x : Decimal) (exponent : Nat) : Option Decimal :=
  let drop := x.scale + exponent - maxScale
  if maxScale < exponent then none
  else if drop = 0 then ofParts? x.negative x.mantissa (x.scale + exponent)
  else ofParts? x.negative ((x.mantissa + 5 * 10 ^ (drop - 1)) / 10 ^ drop) maxScale

/-- An exponent without its minus: digits below `2 ^ 32` behind an optional plus. -/
def readShift (text : List Char) : Option Nat := do
  let digits := match text with
    | '+' :: rest => rest
    | _ => text
  let value ← readDigits digits
  if value < 2 ^ (32 : Nat) then some value else none

def isExponentMark (c : Char) : Bool := c = 'e' || c = 'E'

/-- Reads a decimal with an exponent behind its first exponent mark. -/
def readScientific (text : List Char) : Option Decimal := do
  let base ← readPlain (text.takeWhile (!isExponentMark ·))
  match text.dropWhile (!isExponentMark ·) with
  | _ :: '-' :: rest => base.shiftLeft (← readShift rest)
  | _ :: rest => base.shiftRight (← readShift rest)
  | [] => none

def read (text : List Char) : Option Decimal :=
  readPlain text <|> readScientific text

end RuleExpr.Number.Decimal

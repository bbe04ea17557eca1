import RuleExpr.Number.Decimal.Binary
import RuleExpr.Value.Basic

/-!
# Numeric Conversion

Every number can be asked for as a number of another kind.  Whole numbers of bounded width come
from the 64-bit integer nearest towards zero and keep its low bits, floating targets from the
nearest double, and the unbounded targets from the exact number where there is one.
-/

namespace RuleExpr.Value

open RuleExpr.Number

-- The powers of the core library, also where another instance is known.
attribute [local instance (high)] instPowNat

/-- Whole part as a 64-bit integer.  Floating values are held within the range; unbounded ones
outside of it have none. -/
def toInt64? : Value → Option Int64
  | byte v => some v.toInt64
  | short v => some v.toInt64
  | char v => some (Int64.ofNat v.toNat)
  | int v => some v.toInt64
  | long v => some v
  | float v => some (Int64.ofInt (v.decode.clamp (-2 ^ (63 : Nat)) (2 ^ (63 : Nat) - 1)))
  | double v => some (Int64.ofInt (v.decode.clamp (-2 ^ (63 : Nat)) (2 ^ (63 : Nat) - 1)))
  | bigInteger v => inRange v
  | bigDecimal v => inRange v.truncate
  | _ => none
where
  inRange (v : Int) : Option Int64 :=
    if -2 ^ (63 : Nat) ≤ v ∧ v < 2 ^ (63 : Nat) then some (Int64.ofInt v) else none

def toDouble? : Value → Option Double
  | float v => some v.convert
  | double v => some v
  | bigInteger v => some (.ofInt v)
  | bigDecimal v => some v.toDouble
  | value => value.toInt64?.map fun v => .ofInt v.toInt

/-- Whole part as an unbounded integer; infinities have none. -/
def toInt? : Value → Option Int
  | bigInteger v => some v
  | bigDecimal v => some v.truncate
  | float v => v.decode.truncate?
  | double v => v.decode.truncate?
  | value => value.toInt64?.map (·.toInt)

def toDecimal? : Value → Option Decimal
  | bigDecimal v => some v
  | bigInteger v => Decimal.ofInt? v
  | float v => Decimal.ofBinary v
  | double v => Decimal.ofBinary v
  | value => value.toInt64?.bind fun v => Decimal.ofInt? v.toInt

/-- The character with the low sixteen bits as its code, unless that is a surrogate. -/
def charOfInt64? (v : Int64) : Option Char :=
  let code := (v.toInt % 2 ^ (16 : Nat)).toNat
  if code.isValidChar then some (Char.ofNat code) else none

/-- The number as one of kind `target`. -/
def numberAs? (value : Value) : NumericKind → Option Value
  | .byte => value.toInt64?.map fun v => byte v.toInt8
  | .short => value.toInt64?.map fun v => short v.toInt16
  | .int => value.toInt64?.map fun v => int v.toInt32
  | .long => value.toInt64?.map long
  | .char => (value.toInt64?.bind charOfInt64?).map char
  | .float => value.toDouble?.map fun v => float v.convert
  | .double => value.toDouble?.map double
  | .bigInteger => value.toInt?.map bigInteger
  | .bigDecimal => value.toDecimal?.map bigDecimal

/-- Converts a number to `target`; null stays null, and anything else does not convert. -/
def convert (value : Value) (target : NumericKind) : Except EvalError Value :=
  if value.isNull then .ok null
  else
    match value.numberAs? target with
    | some converted => .ok converted
    | none => .error (.invalidConversion value.render target.label)

end RuleExpr.Value

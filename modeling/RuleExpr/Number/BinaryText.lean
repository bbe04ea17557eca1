import RuleExpr.Number.Numeral
import RuleExpr.Number.Shortest

/-!
# Text of Floating Point Values

A layout says which decimals are written positionally and whether a whole number shows a point.
`Layout.plain` is how the language shows a value, `Layout.literal` how a value is written as
literal source text.  `readDouble` reads the literal texts back, rounding to the nearest value.
-/

namespace RuleExpr.Number

-- The powers of the core library, also where another instance is known.
attribute [local instance (high)] instPowNat

structure Layout where
  /-- Whether a number whose leading digit counts `10 ^ lead` is written without an exponent. -/
  positional (lead : Int) : Bool
  /-- What follows the digits of a whole number written positionally. -/
  wholeTail : String

namespace Layout

/-- Never an exponent, and no point in whole numbers. -/
def plain : Layout := ⟨fun _ => true, ""⟩

/-- An exponent from `10 ^ 16` on and below `10 ^ -4`; whole numbers show `.0`. -/
def literal : Layout := ⟨fun lead => -5 < lead && lead < 16, ".0"⟩

end Layout

def zeros (count : Nat) : List Char := List.replicate count '0'

/-- Digits with a point behind the first `whole` of them, filled with zeros on either side. -/
def placePoint (digits : List Char) (whole : Int) (wholeTail : String) : String :=
  if whole ≤ 0 then
    "0." ++ String.ofList (zeros (-whole).toNat ++ digits)
  else if digits.length ≤ whole.toNat then
    String.ofList (digits ++ zeros (whole.toNat - digits.length)) ++ wholeTail
  else
    String.ofList (digits.take whole.toNat) ++ "." ++ String.ofList (digits.drop whole.toNat)

/-- One digit before the point, the rest behind it, then the exponent of the first digit. -/
def placeExponent (digits : List Char) (lead : Int) : String :=
  let tail := digits.drop 1
  String.ofList (digits.take 1) ++
    (if tail = [] then "" else "." ++ String.ofList tail) ++ "e" ++ renderInt lead

def dropTrailingZeros (digits : List Char) : List Char :=
  (digits.reverse.dropWhile (· = '0')).reverse

def Layout.render (layout : Layout) (x : DecimalFloat) : String :=
  let digits := digitsOf x.digits
  let lead := x.exponent + digits.length - 1
  let digits := dropTrailingZeros digits
  if layout.positional lead then placePoint digits (lead + 1) layout.wholeTail
  else placeExponent digits lead

def Binary.render {f : Format} (layout : Layout) (x : Binary f) : String :=
  let signed (negative : Bool) (text : String) := if negative then "-" ++ text else text
  match x.decode with
  | .notANumber _ => "NaN"
  | .infinite negative => signed negative "inf"
  | .finite negative magnitude =>
    signed negative <|
      if magnitude.significand = 0 then "0" ++ layout.wholeTail
      else layout.render (shortest f magnitude)

/-- Value of `digits * 10 ^ exponent`.  Decimals far outside the range of the format go to
infinity or zero without being expanded. -/
def doubleOfDecimal (negative : Bool) (digits : Nat) (exponent : Int) : Double :=
  let lead := exponent + (digitsOf digits).length
  if digits = 0 ∨ lead < -400 then .ofMagnitude negative 0
  else if 400 < lead then .infinity negative
  else .ofFraction negative (digits * 10 ^ exponent.toNat) (10 ^ (-exponent).toNat)

/-- Reads the exponent that may follow the digits, up to the end of the text. -/
def readExponent : List Char → Option Int
  | [] => some 0
  | mark :: rest =>
    if mark = 'e' ∨ mark = 'E' then
      let (negative, digits) := splitSign rest
      applySign negative <$> readDigits digits
    else
      none

/-- Reads digits with an optional point and an optional exponent. -/
def readUnsignedDouble (negative : Bool) (text : List Char) : Option Double := do
  let whole := text.takeWhile Char.isDigit
  let rest := text.dropWhile Char.isDigit
  let (fraction, rest) := match rest with
    | '.' :: tail => (tail.takeWhile Char.isDigit, tail.dropWhile Char.isDigit)
    | _ => ([], rest)
  let digits ← readDigits (whole ++ fraction)
  let exponent ← readExponent rest
  some (doubleOfDecimal negative digits (exponent - fraction.length))

def readDouble (text : List Char) : Option Double :=
  let (negative, rest) := splitSign text
  let word := rest.map Char.toLower
  if word = "inf".toList ∨ word = "infinity".toList then some (.infinity negative)
  else if word = "nan".toList then some (.ofMagnitude negative Format.double.quietBits)
  else readUnsignedDouble negative rest

end RuleExpr.Number

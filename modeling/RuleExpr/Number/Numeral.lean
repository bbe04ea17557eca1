/-!
# Decimal Numerals

Readers for whole numbers written in ASCII digits.  A bounded numeral is an optional sign and at
least one digit, and denotes a number in a given range.  An unbounded numeral also admits
underscores after its first digit.
-/

namespace RuleExpr.Number

-- The powers of the core library, also where another instance is known.
attribute [local instance (high)] instPowNat

def digitValue (c : Char) : Nat := c.toNat - '0'.toNat

/-- Number denoted by a list of digits, most significant first. -/
def ofDigits (digits : List Char) : Nat :=
  digits.foldl (fun value c => 10 * value + digitValue c) 0

/-- Digits of a number, most significant first; zero has one. -/
def digitsOf (value : Nat) : List Char := Nat.toDigits 10 value

/-- Reads at least one digit and nothing else. -/
def readDigits (text : List Char) : Option Nat :=
  if text ≠ [] ∧ text.all Char.isDigit then some (ofDigits text) else none

/-- Splits off one leading sign; the flag is set for a minus. -/
def splitSign : List Char → Bool × List Char
  | '-' :: rest => (true, rest)
  | '+' :: rest => (false, rest)
  | text => (false, text)

def applySign (negative : Bool) (magnitude : Nat) : Int :=
  if negative then -(magnitude : Int) else magnitude

/-- Reads an optional sign and digits that denote a number from `low` to `high`. -/
def readBounded (low high : Int) (text : List Char) : Option Int := do
  let (negative, digits) := splitSign text
  let value := applySign negative (← readDigits digits)
  if low ≤ value ∧ value ≤ high then some value else none

def readInt32 (text : List Char) : Option Int32 :=
  (readBounded (-2 ^ (31 : Nat)) (2 ^ (31 : Nat) - 1) text).map Int32.ofInt

def readInt64 (text : List Char) : Option Int64 :=
  (readBounded (-2 ^ (63 : Nat)) (2 ^ (63 : Nat) - 1) text).map Int64.ofInt

/-- Reads a number of any size.  Underscores may stand anywhere behind the first digit. -/
def readUnbounded (text : List Char) : Option Int := do
  let (negative, digits) := splitSign text
  if digits.head?.any Char.isDigit then
    applySign negative <$> readDigits (digits.filter (· ≠ '_'))
  else
    none

def renderInt (value : Int) : String :=
  if value < 0 then "-" ++ String.ofList (digitsOf value.natAbs)
  else String.ofList (digitsOf value.natAbs)

end RuleExpr.Number

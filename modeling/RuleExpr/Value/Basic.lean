import RuleExpr.Assoc
import RuleExpr.Number.BinaryText
import RuleExpr.Number.Decimal.Text
import RuleExpr.Number.Kind

/-!
# Run-Time Values

A value is null, a truth value, a number of one of the nine kinds, a text, an array or an object.
Boxed and meta wrapper types hold the same values as the kind they are built on, and `null` is the
absent value of every type that has one.
-/

namespace RuleExpr

open RuleExpr.Number

inductive Value where
  | null
  | bool (value : Bool)
  | byte (value : Int8)
  | short (value : Int16)
  | char (value : Char)
  | int (value : Int32)
  | long (value : Int64)
  | float (value : Single)
  | double (value : Double)
  | bigInteger (value : Int)
  | bigDecimal (value : Decimal)
  | string (value : String)
  | array (elements : List Value)
  | object (typeName : String) (fields : List (String × Value))
  deriving Inhabited

/-- Why an evaluation fails. -/
inductive EvalError where
  | nullValue (expected : String)
  | divisionByZero
  | indexOutOfBounds (index : Int) (length : Nat)
  | invalidConversion (value target : String)
  | overflow (operation : String)
  | typeMismatch (expected found : String)
  | unknownField (name : String)
  | unbound (message : String)
  | negativeArraySize (size : Int)
  | slotOutOfRange (slot : Nat)
  | noFrame
  deriving DecidableEq, Repr

def EvalError.message : EvalError → String
  | nullValue expected => "null value where a " ++ expected ++ " was required"
  | divisionByZero => "division by zero"
  | indexOutOfBounds index length =>
    "index " ++ renderInt index ++ " out of bounds for length " ++ toString length
  | invalidConversion value target => "cannot convert " ++ value ++ " to " ++ target
  | overflow operation => "arithmetic overflow in " ++ operation
  | typeMismatch expected found => "expected " ++ expected ++ ", found " ++ found
  | unknownField name => "unknown field '" ++ name ++ "'"
  | unbound message => "expression was not bound: " ++ message
  | negativeArraySize size => "negative array size " ++ renderInt size
  | slotOutOfRange slot => "local slot " ++ toString slot ++ " is outside the current frame"
  | noFrame => "no active frame"

namespace Value

def isNull : Value → Bool
  | null => true
  | _ => false

def bool? : Value → Option Bool
  | bool value => some value
  | _ => none

def elements? : Value → Option (List Value)
  | array elements => some elements
  | _ => none

/-- Name of the shape of the value in messages. -/
def label : Value → String
  | null => "null"
  | bool _ => "boolean"
  | byte _ => "byte"
  | short _ => "short"
  | char _ => "char"
  | int _ => "int"
  | long _ => "long"
  | float _ => "float"
  | double _ => "double"
  | bigInteger _ => "BigInteger"
  | bigDecimal _ => "BigDecimal"
  | string _ => "String"
  | array _ => "array"
  | object _ _ => "object"

def numericKind? : Value → Option NumericKind
  | byte _ => some .byte
  | short _ => some .short
  | char _ => some .char
  | int _ => some .int
  | long _ => some .long
  | float _ => some .float
  | double _ => some .double
  | bigInteger _ => some .bigInteger
  | bigDecimal _ => some .bigDecimal
  | _ => none

mutual

/-- How the value appears in concatenated texts and messages. -/
def render : Value → String
  | null => "null"
  | bool value => if value then "true" else "false"
  | byte value => renderInt value.toInt
  | short value => renderInt value.toInt
  | char value => String.singleton value
  | int value => renderInt value.toInt
  | long value => renderInt value.toInt
  | float value => value.render .plain
  | double value => value.render .plain
  | bigInteger value => renderInt value
  | bigDecimal value => value.render
  | string value => value
  | array elements => "[" ++ String.intercalate ", " (renderAll elements) ++ "]"
  | object typeName _ => typeName ++ "\x7b..\x7d"

def renderAll : List Value → List String
  | [] => []
  | value :: rest => value.render :: renderAll rest

end

mutual

/-- Equality of values of one shape.  Floating values are equal as numbers, so that one that is
not a number differs from itself; decimals are equal whatever their scales; the fields of objects
are compared by name. -/
def equal : Value → Value → Bool
  | null, null => true
  | bool x, bool y => x == y
  | byte x, byte y => x == y
  | short x, short y => x == y
  | char x, char y => x == y
  | int x, int y => x == y
  | long x, long y => x == y
  | float x, float y => x.eq y
  | double x, double y => x.eq y
  | bigInteger x, bigInteger y => x == y
  | bigDecimal x, bigDecimal y => x.eq y
  | string x, string y => x == y
  | array xs, array ys => equalAll xs ys
  | object name xs, object name' ys =>
    name == name' && xs.length == ys.length && equalFields xs ys
  | _, _ => false

def equalAll : List Value → List Value → Bool
  | [], [] => true
  | x :: xs, y :: ys => x.equal y && equalAll xs ys
  | _, _ => false

/-- Whether each of the first fields equals the one of its name among the others. -/
def equalFields : List (String × Value) → List (String × Value) → Bool
  | [], _ => true
  | (name, x) :: xs, ys => (Assoc.get? ys name).any (x.equal ·) && equalFields xs ys

end

end Value

end RuleExpr

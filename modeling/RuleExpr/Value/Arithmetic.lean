import RuleExpr.Value.Convert

/-!
# Arithmetic on Values

An operation converts both operands to one kind and computes in it: modulo the width for `int` and
`long`, exactly for unbounded integers, rounded once for floating values, within bounds for
decimals.  Narrower kinds have no arithmetic of their own.
-/

namespace RuleExpr

open RuleExpr.Number

inductive ArithmeticOp where
  | add
  | subtract
  | multiply
  | divide
  | remainder
  deriving DecidableEq, Repr

namespace ArithmeticOp

def all : List ArithmeticOp := [add, subtract, multiply, divide, remainder]

def methodName : ArithmeticOp → String
  | add => "add"
  | subtract => "subtract"
  | multiply => "multiply"
  | divide => "divide"
  | remainder => "rem"

/-- Whether the operation divides by its second operand. -/
def divides : ArithmeticOp → Bool
  | divide | remainder => true
  | _ => false

def onInt32 : ArithmeticOp → Int32 → Int32 → Int32
  | add, x, y => x + y
  | subtract, x, y => x - y
  | multiply, x, y => x * y
  | divide, x, y => x / y
  | remainder, x, y => x % y

def onInt64 : ArithmeticOp → Int64 → Int64 → Int64
  | add, x, y => x + y
  | subtract, x, y => x - y
  | multiply, x, y => x * y
  | divide, x, y => x / y
  | remainder, x, y => x % y

def onInt : ArithmeticOp → Int → Int → Int
  | add, x, y => x + y
  | subtract, x, y => x - y
  | multiply, x, y => x * y
  | divide, x, y => x.tdiv y
  | remainder, x, y => x.tmod y

def onBinary {f : Format} : ArithmeticOp → Binary f → Binary f → Binary f
  | add, x, y => x.add y
  | subtract, x, y => x.sub y
  | multiply, x, y => x.mul y
  | divide, x, y => x.div y
  | remainder, x, y => x.rem y

def onDecimal : ArithmeticOp → Decimal → Decimal → Option Decimal
  | add, x, y => x.add y
  | subtract, x, y => x.sub y
  | multiply, x, y => x.mul y
  | divide, x, y => x.div y
  | remainder, x, y => x.rem y

/-- The operation on two values of one kind. -/
def onSameKind (op : ArithmeticOp) (kind : NumericKind) : Value → Value → Except EvalError Value
  | .int x, .int y =>
    if op.divides && y == 0 then .error .divisionByZero else .ok (.int (op.onInt32 x y))
  | .long x, .long y =>
    if op.divides && y == 0 then .error .divisionByZero else .ok (.long (op.onInt64 x y))
  | .float x, .float y => .ok (.float (op.onBinary x y))
  | .double x, .double y => .ok (.double (op.onBinary x y))
  | .bigInteger x, .bigInteger y =>
    if op.divides && y == 0 then .error .divisionByZero else .ok (.bigInteger (op.onInt x y))
  | .bigDecimal x, .bigDecimal y =>
    if op.divides && y.isZero then .error .divisionByZero
    else
      match op.onDecimal x y with
      | some result => .ok (.bigDecimal result)
      | none => .error (.overflow op.methodName)
  | x, _ => .error (.typeMismatch kind.label x.label)

/-- The operation on two values taken as numbers of kind `kind`. -/
def apply (op : ArithmeticOp) (kind : NumericKind) (x y : Value) : Except EvalError Value :=
  if x.isNull || y.isNull then .error (.nullValue (kind.label ++ " operand"))
  else do
    let x ← x.convert kind
    let y ← y.convert kind
    op.onSameKind kind x y

end ArithmeticOp

/-- The negated value, taken as a number of kind `kind`. -/
def Value.negate (kind : NumericKind) (operand : Value) : Except EvalError Value :=
  if operand.isNull then .error (.nullValue (kind.label ++ " operand"))
  else do
    match ← operand.convert kind with
    | .int v => .ok (.int (-v))
    | .long v => .ok (.long (-v))
    | .float v => .ok (.float v.neg)
    | .double v => .ok (.double v.neg)
    | .bigInteger v => .ok (.bigInteger (-v))
    | .bigDecimal v => .ok (.bigDecimal v.neg)
    | other => .error (.typeMismatch kind.label other.label)

end RuleExpr

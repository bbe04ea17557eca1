import RuleExpr.Comparison
import RuleExpr.Value.Convert

/-!
# Comparing Values

The comparisons of the operator library: of numbers converted to a common kind, of truth values and
of texts, with operands that may be null where the operand type allows it.
-/

namespace RuleExpr.Comparison

/-- Whether operands are compared as they are or with tolerance. -/
inductive Mode where
  | loose
  | strict
  deriving DecidableEq, Repr

def nameIn (op : Comparison) : Mode → String
  | .loose => op.methodName
  | .strict => op.strictMethodName

def decideIn {α : Type} [Comparable α] (op : Comparison) : Mode → α → α → Bool
  | .loose => op.loose
  | .strict => op.strict

/-- Null stands for an unknown answer. -/
def ofUnknown : Option Bool → Value
  | some answer => .bool answer
  | none => .null

/-- Compares two values as numbers of kind `kind`. -/
def numbers (op : Comparison) (mode : Mode) (kind : NumericKind) (x y : Value) :
    Except EvalError Bool := do
  let x ← x.convert kind
  let y ← y.convert kind
  match x, y with
  | .int a, .int b => .ok (op.decideIn mode a b)
  | .long a, .long b => .ok (op.decideIn mode a b)
  | .float a, .float b => .ok (op.decideIn mode a b)
  | .double a, .double b => .ok (op.decideIn mode a b)
  | .bigInteger a, .bigInteger b => .ok (op.decideIn mode a b)
  | .bigDecimal a, .bigDecimal b => .ok (op.decideIn mode a b)
  | _, _ => .error (.typeMismatch kind.label x.label)

/-- Answer when at least one operand is null. -/
def withNull (op : Comparison) (x y : Value) : Value :=
  let present (v : Value) : Option Bool := if v.isNull then none else some false
  ofUnknown (op.nullable (present x) (present y))

def numbersOrNull (op : Comparison) (mode : Mode) (kind : NumericKind) (x y : Value) :
    Except EvalError Value :=
  if x.isNull || y.isNull then .ok (op.withNull x y)
  else .bool <$> op.numbers mode kind x y

def expectBool : Value → Except EvalError Bool
  | .bool value => .ok value
  | .null => .error (.nullValue "boolean")
  | other => .error (.typeMismatch "boolean" other.label)

def boolOrNull : Value → Except EvalError (Option Bool)
  | .bool value => .ok (some value)
  | .null => .ok none
  | other => .error (.typeMismatch "Boolean" other.label)

def stringOrNull : Value → Except EvalError (Option String)
  | .string value => .ok (some value)
  | .null => .ok none
  | other => .error (.typeMismatch "String" other.label)

def bools (op : Comparison) (x y : Value) : Except EvalError Value := do
  let x ← expectBool x
  let y ← expectBool y
  .ok (.bool (op.loose x y))

def boolsOrNull (op : Comparison) (x y : Value) : Except EvalError Value := do
  let x ← boolOrNull x
  let y ← boolOrNull y
  .ok (ofUnknown (op.nullable x y))

def strings (op : Comparison) (x y : Value) : Except EvalError Value := do
  let x ← stringOrNull x
  let y ← stringOrNull y
  .ok (ofUnknown (op.generic x y))

end RuleExpr.Comparison

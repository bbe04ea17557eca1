import RuleExpr.Binder.Call
import RuleExpr.Binder.Conditional

/-!
# Operators

An operator is a call of the method of its name.  A loose comparison with a boxed operand is first
lifted to a boxed type of both operands, so that a null operand leaves it unknown.
-/

namespace RuleExpr

open BindM

/-- Comparisons that are lifted when an operand may be null. -/
def nullableComparisons : List String := Comparison.all.map (·.methodName)

/-- Kind in which operands of the given types are compared. -/
def workingKind? : List Ty → Option NumericKind → Option NumericKind
  | [], kind => kind
  | t :: rest, none => do
    let kind ← t.numericKind?
    workingKind? rest (some (kind.promote kind))
  | t :: rest, some working => do
    let kind ← t.numericKind?
    workingKind? rest (some (working.promote kind))

/-- Boxed type that the operands of a comparison share, if one of them is boxed. -/
def liftedType? (types : List Ty) : Option Ty :=
  if types.any (·.boxed?.isSome) then
    let present := types.filter (!·.isNull)
    if present.all (·.isBooleanLike) then some (.boxed .boolean)
    else (workingKind? present none).map fun kind => (Ty.ofNumericKind kind).box
  else
    none

/-- Conversions of all operands to `target`, if all convert. -/
def castsTo (target : Ty) : List BoundNode → BindM (Option (List Cast))
  | [] => return some []
  | operand :: rest => do
    match ← implicitCast operand.ty target with
    | some cast => return (← castsTo target rest).map (cast :: ·)
    | none => return none

/-- Converts all operands to `target`, or leaves them all as they are. -/
def coerceAll (operands : List BoundNode) (target : Ty) : BindM (List BoundNode) := do
  match ← castsTo target operands with
  | some casts => return (operands.zip casts).map fun (operand, cast) => operand.wrap cast
  | none => return operands

/-- Operands as the operator method sees them. -/
def liftOperands (methodName : String) (operands : List BoundNode) : BindM (List BoundNode) :=
  if operands.all (·.ty.isNull) then coerceAll operands .object
  else if nullableComparisons.contains methodName then
    match liftedType? (operands.map (·.ty)) with
    | some target => coerceAll operands target
    | none => return operands
  else return operands

def operatorCall (methodName symbol : String) (operands : List BoundNode) (span : Span) :
    BindM BoundNode := do
  let written := operands.map (·.ty)
  let operands ← liftOperands methodName operands
  let types := operands.map (·.ty)
  match ← resolve (← findMethods methodName) methodName types with
  | .found selection => buildCall selection none operands span
  | .notFound =>
    errorNode .methodNotFound
      ("operator '" ++ symbol ++ "' is not defined for (" ++
        String.intercalate ", " (written.map (·.name)) ++ ")") span
  | .ambiguous methods => ambiguous methods methodName types span

/-- `and` and `or`, which may leave their second operand unevaluated. -/
def bindLogical (node : SyntaxNode) (op : BinaryOp) : List Child → BindM BoundNode
  | [left, right] => do
    let left ← bindCondition left
    let right ← bindCondition right
    if left.isError || right.isError then
      return node.poisoned
    let shape : BoundShape := if op = .or then .or left right else .and left right
    return ⟨shape, .boolean, node.span⟩
  | _ => malformed node (.exactly 2)

def bindBinary (node : SyntaxNode) (op : BinaryOp) (children : List Child) : BindM BoundNode :=
  match op.methodName? with
  | none => bindLogical node op children
  | some methodName =>
    match children with
    | [left, right] => do
      let left ← left.bind
      let right ← right.bind
      if left.isError || right.isError then
        return node.poisoned
      operatorCall methodName op.symbol [left, right] node.span
    | _ => malformed node (.exactly 2)

def bindUnary (node : SyntaxNode) (op : UnaryOp) : List Child → BindM BoundNode
  | [operand] => do
    let operand ← operand.bind
    if operand.isError then
      return node.poisoned
    operatorCall op.methodName op.symbol [operand] node.span
  | _ => malformed node (.exactly 1)

end RuleExpr

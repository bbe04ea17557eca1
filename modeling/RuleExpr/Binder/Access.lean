import RuleExpr.Binder.Child

/-!
# Names, Fields and Elements

A name is a local variable, else a field of a receiver in scope, else a field of the module.
-/

namespace RuleExpr

open BindM

def bindIdentifier (node : SyntaxNode) : BindM BoundNode := do
  let name := node.text
  if let some var ← lookupVar name then
    return ⟨.localVar var.name var.slot, var.ty, node.span⟩
  if let some (receiver, field) := (← get).findReceiverField name then
    let target : BoundNode := ⟨.localVar receiver.name receiver.slot, receiver.ty, node.span⟩
    return ⟨.fieldAccess target field.name, field.ty, node.span⟩
  if let some field ← getField name then
    return ⟨.moduleField field, field.ty, node.span⟩
  errorNode .unknownIdentifier ("unknown identifier '" ++ name ++ "'") node.span

/-- Reads a field of a bound object; arrays have a `length`. -/
def accessField (node : SyntaxNode) (target : BoundNode) : BindM BoundNode := do
  if target.isError then
    return node.poisoned
  if target.ty.isArray && node.text == "length" then
    return ⟨.arrayLength target, .int, node.span⟩
  match ← fieldOf target.ty node.text with
  | some field => return ⟨.fieldAccess target field.name, field.ty, node.span⟩
  | none =>
    errorNode .fieldNotFound
      ("type '" ++ target.ty.name ++ "' has no field '" ++ node.text ++ "'") node.span

def bindFieldAccess (node : SyntaxNode) : List Child → BindM BoundNode
  | [target] => do accessField node (← target.bind)
  | _ => malformed node (.exactly 1)

/-- Reads an element of a bound array or collection. -/
def accessElement (node : SyntaxNode) (array index : BoundNode) : BindM BoundNode := do
  if array.isError || index.isError then
    return node.poisoned
  match array.ty.component? with
  | none =>
    errorNode .notAggregate ("cannot index a value of type '" ++ array.ty.name ++ "'") node.span
  | some component =>
    let index ← coerce index .int
    if index.isError then
      return node.poisoned
    return ⟨.arrayElement array index, component, node.span⟩

def bindIndex (node : SyntaxNode) : List Child → BindM BoundNode
  | [array, index] => do
    let array ← array.bind
    let index ← index.bind
    accessElement node array index
  | _ => malformed node (.exactly 2)

end RuleExpr

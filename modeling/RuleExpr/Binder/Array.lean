import RuleExpr.Binder.Child
import RuleExpr.Binder.TypeReference

/-!
# Casts and Arrays

A written cast may use any conversion.  The elements of an array initializer are brought to their
common type, found from left to right.
-/

namespace RuleExpr

open BindM

/-- Converts `operand` as the tree says, or reports that it cannot be. -/
def castTo (node : SyntaxNode) (operand : BoundNode) (target : Ty) : BindM BoundNode := do
  if operand.isError then
    return node.poisoned
  if operand.ty.key = target.key then
    return operand
  match ← BindM.castBetween operand.ty target with
  | some cast => return { operand.wrap cast with span := node.span }
  | none =>
    errorNode .invalidCast
      ("cannot cast '" ++ operand.ty.name ++ "' to '" ++ target.name ++ "'") node.span

def bindCast (node : SyntaxNode) : List Child → BindM BoundNode
  | [type, operand] => do
    let target? ← resolveType type.node
    let operand ← operand.bind
    match target? with
    | some target => castTo node operand target
    | none => return node.poisoned
  | _ => malformed node (.exactly 2)

/-- An array of a given size, whose elements have their default values. -/
def bindNewArray (node : SyntaxNode) : List Child → BindM BoundNode
  | [type, size] => do
    let element? ← resolveType type.node
    let size ← size.bind
    match element? with
    | none => return node.poisoned
    | some element =>
      if size.isError then
        return node.poisoned
      let size ← coerce size .int
      if size.isError then
        return node.poisoned
      return ⟨.newArray element size, ← arrayOf element, node.span⟩
  | _ => malformed node (.exactly 2)

/-- Common type of the elements, starting from `current`; on failure the node that stands for the
initializer. -/
def commonElementType : Ty → List BoundNode → BindM (Except BoundNode Ty)
  | current, [] => return .ok current
  | current, element :: rest => do
    match ← commonType current element.ty with
    | some next => commonElementType next rest
    | none =>
      return .error (← errorNode .typeMismatch
        ("array elements of type '" ++ current.name ++ "' and '" ++ element.ty.name ++
          "' have no common type") element.span)

def coerceElements (component : Ty) : List BoundNode → BindM (List BoundNode)
  | [] => return []
  | element :: rest => do
    let element ← coerce element component
    return element :: (← coerceElements component rest)

/-- An array of the given elements; one of nulls alone, or of nothing, holds any object. -/
def buildArray (node : SyntaxNode) (elements : List BoundNode) (common : Ty) :
    BindM BoundNode := do
  let component := if common.isNull then .object else common
  let elements ← coerceElements component elements
  return ⟨.arrayInit elements, ← arrayOf component, node.span⟩

def bindArrayInit (node : SyntaxNode) (children : List Child) : BindM BoundNode := do
  let elements ← bindAll children
  if elements.any (·.isError) then
    return node.poisoned
  match elements with
  | [] => buildArray node [] .object
  | first :: rest =>
    match ← commonElementType first.ty rest with
    | .ok common => buildArray node elements common
    | .error failed => return failed

end RuleExpr

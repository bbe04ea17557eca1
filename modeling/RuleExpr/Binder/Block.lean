import RuleExpr.Binder.Child
import RuleExpr.Binder.TypeReference

/-!
# Blocks and Variables

The statements of a block share a scope, and the value of a block is that of its last statement.
-/

namespace RuleExpr

open BindM

/-- The variables of the statements are visible in the block only. -/
def bindBlock (node : SyntaxNode) (children : List Child) : BindM BoundNode := do
  let statements ← inScope (bindAll children)
  let t := (statements.getLast?.map (·.ty)).getD .void
  return ⟨.block statements, t, node.span⟩

/-- Declares a variable with a bound initial value. -/
def declare (node : SyntaxNode) (t : Ty) (initial : BoundNode) : BindM BoundNode := do
  let initial ← coerce initial t
  if initial.isError then
    return node.poisoned
  match ← addVar LocalVar.localNs node.text t node.span with
  | some var => return ⟨.varDecl var.slot initial, var.ty, node.span⟩
  | none => return node.poisoned

def bindVarDecl (node : SyntaxNode) : List Child → BindM BoundNode
  | [type, initial] => do
    let declared? ← resolveType type.node
    let initial ← initial.bind
    match declared? with
    | some t => declare node t initial
    | none => return node.poisoned
  | _ => malformed node (.exactly 2)

end RuleExpr

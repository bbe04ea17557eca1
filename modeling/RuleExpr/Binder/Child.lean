import RuleExpr.Binder.Context

/-!
# Children of a Node Being Bound

A binder for one kind of node gets the children of the node together with the action that binds
each of them.  It decides in which order and in which scope the actions run, and never looks below
its own children.
-/

namespace RuleExpr

structure Child where
  node : SyntaxNode
  bind : BindM BoundNode

/-- How many children a kind of node takes. -/
inductive Arity where
  | exactly (count : Nat)
  | between (least most : Nat)
  | atLeast (least : Nat)
  deriving DecidableEq, Repr

def Arity.render : Arity → String
  | exactly count => toString count
  | between least most => toString least ++ " to " ++ toString most
  | atLeast least => "at least " ++ toString least

namespace BindM

/-- Error node for a node with the wrong number of children. -/
def malformed (node : SyntaxNode) (arity : Arity) : BindM BoundNode :=
  errorNode .malformedNode
    (node.kind.label ++ " expects " ++ arity.render ++ " children, found " ++
      toString node.children.length) node.span

/-- Binds children one after the other. -/
def bindAll : List Child → BindM (List BoundNode)
  | [] => return []
  | child :: rest => do
    let bound ← child.bind
    return bound :: (← bindAll rest)

end BindM

/-- Error node for a node with a child that was reported already. -/
def SyntaxNode.poisoned (node : SyntaxNode) : BoundNode :=
  .failure (node.kind.label ++ " has an operand that failed to bind") node.span

end RuleExpr

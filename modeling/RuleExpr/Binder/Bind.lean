import RuleExpr.Binder.Access
import RuleExpr.Binder.Aggregate
import RuleExpr.Binder.Array
import RuleExpr.Binder.Block
import RuleExpr.Binder.Literal
import RuleExpr.Binder.Operator

/-!
# Binding Syntax Trees

`bind` turns a syntax tree into a bound tree.  It follows the tree, hands every node to the binder
of its kind, and stops at the nesting limit of the settings.
-/

namespace RuleExpr

open BindM

/-- Binds a node with the actions that bind its children. -/
def bindKind (node : SyntaxNode) (children : List Child) : BindM BoundNode :=
  match node.kind with
  | .literal kind => bindLiteral node kind
  | .identifier => bindIdentifier node
  | .fieldAccess => bindFieldAccess node children
  | .index => bindIndex node children
  | .methodCall => bindMethodCall node children
  | .memberCall => bindMemberCall node children
  | .binary op => bindBinary node op children
  | .unary op => bindUnary node op children
  | .cast => bindCast node children
  | .ternary | .conditional => bindConditional node children
  | .new => bindNew node children
  | .newArray => bindNewArray node children
  | .arrayInit => bindArrayInit node children
  | .aggregate kind => bindAggregate node kind children
  | .block => bindBlock node children
  | .varDecl => bindVarDecl node children
  | .typeName | .arrayType | .loopVar =>
    errorNode .malformedNode (node.kind.label ++ " cannot be used as a value") node.span

/-- Runs `act` one level deeper, or reports that the limit is reached.  The level is left again
also when `act` fails. -/
def nested (span : Span) (act : BindM BoundNode) : BindM BoundNode := do
  let limit := (← read).config.maxBindDepth
  if (← get).depth < limit then
    fun settings s =>
      let (result, s') := act settings { s with depth := s.depth + 1 }
      (result, { s' with depth := s'.depth - 1 })
  else
    errorNode .nestingTooDeep
      ("expression is nested deeper than " ++ toString limit ++ " levels") span

mutual

/-- Binds a node and everything below it. -/
def bind : SyntaxNode → BindM BoundNode
  | ⟨kind, text?, children, span⟩ =>
    nested span (bindKind ⟨kind, text?, children, span⟩ (childrenOf children))

/-- The nodes with the actions that bind them. -/
def childrenOf : List SyntaxNode → List Child
  | [] => []
  | node :: rest => ⟨node, bind node⟩ :: childrenOf rest

end

end RuleExpr

import RuleExpr.Syntax.Operator
import RuleExpr.Syntax.Span

/-!
# Syntax Trees

A node has a kind, an optional text and any number of children.  Nothing here says how many
children a kind takes: trees may be malformed, and binding reports it.
-/

namespace RuleExpr

inductive LiteralKind where
  | integer
  | long
  | double
  | decimal
  | bigInteger
  | string
  | char
  | boolean
  | null
  deriving DecidableEq, Repr

def LiteralKind.label : LiteralKind → String
  | integer => "Integer"
  | long => "Long"
  | double => "Double"
  | decimal => "Decimal"
  | bigInteger => "BigInteger"
  | string => "String"
  | char => "Char"
  | boolean => "Boolean"
  | null => "Null"

inductive NodeKind where
  | literal (kind : LiteralKind)
  | identifier
  | typeName
  /-- Children: the element type. -/
  | arrayType
  /-- Children: the object whose field is read. -/
  | fieldAccess
  /-- Children: the array and the position. -/
  | index
  /-- Children: the arguments. -/
  | methodCall
  /-- Children: the receiver, then the arguments. -/
  | memberCall
  | binary (op : BinaryOp)
  | unary (op : UnaryOp)
  /-- Children: the type and the operand. -/
  | cast
  | ternary
  /-- Children: the condition, the branch and perhaps the other branch. -/
  | conditional
  /-- Children: the type, then the arguments. -/
  | new
  /-- Children: the element type and the size. -/
  | newArray
  | arrayInit
  /-- Children: the source, perhaps a loop variable, and the body. -/
  | aggregate (kind : AggregateKind)
  /-- Children: perhaps the type. -/
  | loopVar
  | block
  /-- Children: the type and the initial value. -/
  | varDecl
  deriving DecidableEq, Repr

/-- Name of the kind in messages. -/
def NodeKind.label : NodeKind → String
  | literal _ => "literal"
  | identifier => "identifier"
  | typeName => "type name"
  | arrayType => "array type"
  | fieldAccess => "field access"
  | index => "index"
  | methodCall => "method call"
  | memberCall => "member call"
  | binary _ => "binary operator"
  | unary _ => "unary operator"
  | cast => "cast"
  | ternary => "ternary operator"
  | conditional => "if"
  | new => "new"
  | newArray => "new array"
  | arrayInit => "array initializer"
  | aggregate kind => kind.label
  | loopVar => "loop variable"
  | block => "block"
  | varDecl => "variable declaration"

structure SyntaxNode where
  kind : NodeKind
  text? : Option String
  children : List SyntaxNode
  span : Span

namespace SyntaxNode

/-- The text, empty when the node has none. -/
def text (node : SyntaxNode) : String := node.text?.getD ""

def leaf (kind : NodeKind) (text : String) (span : Span) : SyntaxNode :=
  ⟨kind, some text, [], span⟩

end SyntaxNode

end RuleExpr

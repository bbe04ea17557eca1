import RuleExpr.Number.BinaryText
import RuleExpr.Syntax.Node

/-!
# Building Syntax Trees

One function for each shape of node that a parser would produce.  The nodes stand nowhere.
-/

namespace RuleExpr.SyntaxNode

open RuleExpr.Number

/-- A node that stands nowhere. -/
def build (kind : NodeKind) (text? : Option String) (children : List SyntaxNode) : SyntaxNode :=
  ⟨kind, text?, children, .nowhere⟩

def literal (kind : LiteralKind) (text : String) : SyntaxNode :=
  build (.literal kind) (some text) []

/-- The literal of an `int`: its digits, and a sign if it is negative. -/
def int (value : Int32) : SyntaxNode := literal .integer (renderInt value.toInt)

def long (value : Int64) : SyntaxNode := literal .long (renderInt value.toInt)

def double (value : Double) : SyntaxNode := literal .double (value.render .literal)

/-- A decimal literal is given as it is written, since its digits say its scale. -/
def decimal (text : String) : SyntaxNode := literal .decimal text

def bigInteger (text : String) : SyntaxNode := literal .bigInteger text

def string (text : String) : SyntaxNode := literal .string text

def boolean (value : Bool) : SyntaxNode := literal .boolean (if value then "true" else "false")

def null : SyntaxNode := literal .null "null"

def identifier (name : String) : SyntaxNode := build .identifier (some name) []

/-- A type by its name, where a type is expected. -/
def typeName (name : String) : SyntaxNode := build .typeName (some name) []

def arrayType (element : SyntaxNode) : SyntaxNode := build .arrayType none [element]

def field (target : SyntaxNode) (name : String) : SyntaxNode :=
  build .fieldAccess (some name) [target]

def index (array position : SyntaxNode) : SyntaxNode := build .index none [array, position]

/-- A call by name alone, of a method of the module or of one that it imports. -/
def call (name : String) (arguments : List SyntaxNode) : SyntaxNode :=
  build .methodCall (some name) arguments

/-- A call on a receiver, which comes before the arguments. -/
def memberCall (receiver : SyntaxNode) (name : String) (arguments : List SyntaxNode) :
    SyntaxNode :=
  build .memberCall (some name) (receiver :: arguments)

def binary (op : BinaryOp) (left right : SyntaxNode) : SyntaxNode :=
  build (.binary op) none [left, right]

def unary (op : UnaryOp) (operand : SyntaxNode) : SyntaxNode := build (.unary op) none [operand]

def cast (type operand : SyntaxNode) : SyntaxNode := build .cast none [type, operand]

def ternary (condition yes no : SyntaxNode) : SyntaxNode :=
  build .ternary none [condition, yes, no]

/-- An `if`, with or without an `else`. -/
def conditional (condition yes : SyntaxNode) (no? : Option SyntaxNode) : SyntaxNode :=
  build .conditional none (condition :: yes :: no?.toList)

def newObject (type : SyntaxNode) (arguments : List SyntaxNode) : SyntaxNode :=
  build .new none (type :: arguments)

def newArray (element size : SyntaxNode) : SyntaxNode := build .newArray none [element, size]

def arrayInit (elements : List SyntaxNode) : SyntaxNode := build .arrayInit none elements

/-- The variable of an aggregate.  Without a type it takes that of the elements. -/
def loopVar (name : String) (type? : Option SyntaxNode) : SyntaxNode :=
  build .loopVar (some name) type?.toList

/-- An aggregate whose body names no element: their fields are visible in it. -/
def aggregate (kind : AggregateKind) (source body : SyntaxNode) : SyntaxNode :=
  build (.aggregate kind) none [source, body]

/-- An aggregate whose body names the elements. -/
def aggregateWithVar (kind : AggregateKind) (source var body : SyntaxNode) : SyntaxNode :=
  build (.aggregate kind) none [source, var, body]

def block (statements : List SyntaxNode) : SyntaxNode := build .block none statements

/-- The declaration of `name` with an initial value. -/
def varDecl (type : SyntaxNode) (name : String) (initial : SyntaxNode) : SyntaxNode :=
  build .varDecl (some name) [type, initial]

end RuleExpr.SyntaxNode

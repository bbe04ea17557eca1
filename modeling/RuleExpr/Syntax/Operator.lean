/-!
# Operators

The operators of the language with the name of the method each one calls.  `and` and `or` decide
by their first operand and call none.
-/

namespace RuleExpr

inductive BinaryOp where
  | add
  | subtract
  | multiply
  | divide
  | modulo
  | equal
  | notEqual
  | less
  | lessEqual
  | greater
  | greaterEqual
  | strictEqual
  | strictNotEqual
  | strictLess
  | strictLessEqual
  | strictGreater
  | strictGreaterEqual
  | and
  | or
  deriving DecidableEq, Repr

namespace BinaryOp

/-- Name of the method that implements the operator. -/
def methodName? : BinaryOp → Option String
  | add => some "add"
  | subtract => some "subtract"
  | multiply => some "multiply"
  | divide => some "divide"
  | modulo => some "rem"
  | equal => some "eq"
  | notEqual => some "ne"
  | less => some "lt"
  | lessEqual => some "le"
  | greater => some "gt"
  | greaterEqual => some "ge"
  | strictEqual => some "strict_eq"
  | strictNotEqual => some "strict_ne"
  | strictLess => some "strict_lt"
  | strictLessEqual => some "strict_le"
  | strictGreater => some "strict_gt"
  | strictGreaterEqual => some "strict_ge"
  | and | or => none

def symbol : BinaryOp → String
  | add => "+"
  | subtract => "-"
  | multiply => "*"
  | divide => "/"
  | modulo => "%"
  | equal => "=="
  | notEqual => "!="
  | less => "<"
  | lessEqual => "<="
  | greater => ">"
  | greaterEqual => ">="
  | strictEqual => "===="
  | strictNotEqual => "!==="
  | strictLess => "<=="
  | strictLessEqual => "<==="
  | strictGreater => ">=="
  | strictGreaterEqual => ">==="
  | and => "and"
  | or => "or"

def isLogical : BinaryOp → Bool
  | and | or => true
  | _ => false

end BinaryOp

inductive UnaryOp where
  | not
  | negate
  deriving DecidableEq, Repr

namespace UnaryOp

def methodName : UnaryOp → String
  | not => "not"
  | negate => "negative"

def symbol : UnaryOp → String
  | not => "!"
  | negate => "-"

end UnaryOp

/-- What a loop over the elements of an array or collection answers. -/
inductive AggregateKind where
  /-- Every element that satisfies the condition. -/
  | selectAll
  /-- The first element that satisfies the condition. -/
  | selectFirst
  /-- The value of the body for every element. -/
  | collect
  deriving DecidableEq, Repr

namespace AggregateKind

def label : AggregateKind → String
  | selectAll => "select all"
  | selectFirst => "select first"
  | collect => "collect"

/-- Whether the body is a condition on the element. -/
def isFilter : AggregateKind → Bool
  | selectAll | selectFirst => true
  | collect => false

end AggregateKind

end RuleExpr

/-!
# Ranges of Code Points

Properties of characters are tables of ranges of code points, in increasing order and with gaps
between them.
-/

namespace RuleExpr.Text

/-- The code points from `first` to `last`, both included. -/
structure CodeRange where
  first : Nat
  last : Nat
  deriving DecidableEq, Repr

namespace CodeRange

def contains (range : CodeRange) (code : Nat) : Bool := range.first ≤ code && code ≤ range.last

/-- Whether `c` lies in one of the ranges. -/
def covers (table : List CodeRange) (c : Char) : Bool := table.any (·.contains c.toNat)

end CodeRange

end RuleExpr.Text

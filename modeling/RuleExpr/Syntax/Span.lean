/-!
# Spans

A span is a stretch of source text from a start to an end position.  A position is a line and a
column, ordered by line first.
-/

namespace RuleExpr

structure Span where
  startLine : Nat
  startColumn : Nat
  endLine : Nat
  endColumn : Nat
  deriving DecidableEq, Repr

namespace Span

/-- Span of a node that stands nowhere. -/
def nowhere : Span := ⟨0, 0, 0, 0⟩

/-- Whether position `(l, c)` is not behind position `(l', c')`. -/
def positionLE (l c l' c' : Nat) : Bool :=
  l < l' || (l == l' && c ≤ c')

/-- Smallest span that covers both. -/
def merge (x y : Span) : Span :=
  let start := if positionLE x.startLine x.startColumn y.startLine y.startColumn then x else y
  let stop := if positionLE y.endLine y.endColumn x.endLine x.endColumn then x else y
  ⟨start.startLine, start.startColumn, stop.endLine, stop.endColumn⟩

/-- Start position, as messages show it. -/
def render (x : Span) : String :=
  toString x.startLine ++ ":" ++ toString x.startColumn

end Span

end RuleExpr

import RuleExpr.Binder.Context

/-!
# Type References

Resolves the nodes that stand for types.  What cannot be resolved is reported.
-/

namespace RuleExpr

open BindM

/-- Type that a node refers to. -/
def resolveType : SyntaxNode → BindM (Option Ty)
  | ⟨.typeName, text?, _, span⟩ => do
    let name := text?.getD ""
    match ← findType name with
    | some t => return some t
    | none =>
      reportError .typeNotFound ("unknown type '" ++ name ++ "'") span
      return none
  | ⟨.arrayType, _, element :: _, _⟩ => do
    match ← resolveType element with
    | some t => return some (← arrayOf t)
    | none => return none
  | ⟨.arrayType, _, [], span⟩ => do
    reportError .malformedNode "array type without an element type" span
    return none
  | ⟨kind, _, _, span⟩ => do
    reportError .malformedNode ("expected a type, found " ++ kind.label) span
    return none

end RuleExpr

import RuleExpr.Binder.Conditional
import RuleExpr.Binder.TypeReference

/-!
# Aggregates

Loops over the elements of an array or collection.  The body is bound in a scope of its own with a
loop variable.  A variable that the source does not name is hidden, and the fields of its type can
be named without it.
-/

namespace RuleExpr

open BindM

/-- Variable of a loop, with the conversion of the elements to its type. -/
structure LoopVariable where
  var : LocalVar
  elementCast : Option Cast

/-- Type that a loop variable is declared with; the element type if it has none. -/
def declaredLoopType (node : SyntaxNode) (element : Ty) : BindM (Option Ty) :=
  match node.children with
  | type :: _ => resolveType type
  | [] => return some element

/-- Declares a loop variable of type `declared` over elements of type `element`. -/
def declareLoopVar (node : SyntaxNode) (element declared : Ty) :
    BindM (Option LoopVariable) := do
  let add (cast : Option Cast) : BindM (Option LoopVariable) := do
    return (← addVar LocalVar.localNs node.text declared node.span).map (⟨·, cast⟩)
  if declared.key = element.key then
    add none
  else
    match ← implicitCast element declared with
    | some cast => add (some cast)
    | none =>
      reportError .typeMismatch
        ("elements of type '" ++ element.name ++ "' cannot be assigned to '" ++ node.text ++
          "' of type '" ++ declared.name ++ "'") node.span
      return none

/-- The loop variable that a node names. -/
def namedLoopVar (node : SyntaxNode) (element : Ty) : BindM (Option LoopVariable) := do
  if node.kind = .loopVar then
    match ← declaredLoopType node element with
    | some declared => declareLoopVar node element declared
    | none => return none
  else
    reportError .malformedNode ("expected a loop variable, found " ++ node.kind.label) node.span
    return none

/-- A hidden loop variable whose fields are visible. -/
def hiddenLoopVar (body : SyntaxNode) (element : Ty) : BindM (Option LoopVariable) := do
  let name := (← get).hiddenVarName (← read).config.hiddenVarStem
  match ← addVar LocalVar.localNs name element body.span with
  | some var =>
    addReceiver var
    return some ⟨var, none⟩
  | none => return none

/-- Loop variable and body; `none` when something was reported. -/
def bindLoop (kind : AggregateKind) (element : Ty) (var? : Option Child) (body : Child) :
    BindM (Option (LoopVariable × BoundNode)) := do
  let loop? ← match var? with
    | some var => namedLoopVar var.node element
    | none => hiddenLoopVar body.node element
  match loop? with
  | none => return none
  | some loop =>
    let bound ← if kind.isFilter then bindCondition body else body.bind
    return if bound.isError then none else some (loop, bound)

/-- Type of an aggregate.  Selecting from an array without conversion keeps its type. -/
def aggregateType (kind : AggregateKind) (source : BoundNode) (loop : LoopVariable)
    (body : BoundNode) : BindM Ty :=
  match kind with
  | .selectAll =>
    if source.ty.isArray && loop.elementCast.isNone then return source.ty
    else arrayOf loop.var.ty
  | .selectFirst => return loop.var.ty.box
  | .collect => arrayOf (if body.ty.isNull || body.ty.isVoid then .object else body.ty)

def bindAggregateOver (node : SyntaxNode) (kind : AggregateKind) (source : Child)
    (var? : Option Child) (body : Child) : BindM BoundNode := do
  let source ← source.bind
  if source.isError then
    return node.poisoned
  match source.ty.component? with
  | none =>
    errorNode .notAggregate
      (kind.label ++ " needs an array or collection, found '" ++ source.ty.name ++ "'")
      source.span
  | some element =>
    match ← inScope (bindLoop kind element var? body) with
    | none => return node.poisoned
    | some (loop, body) =>
      let t ← aggregateType kind source loop body
      return ⟨.aggregate kind source loop.var.slot loop.elementCast body, t, node.span⟩

def bindAggregate (node : SyntaxNode) (kind : AggregateKind) : List Child → BindM BoundNode
  | [source, body] => bindAggregateOver node kind source none body
  | [source, var, body] => bindAggregateOver node kind source (some var) body
  | _ => malformed node (.between 2 3)

end RuleExpr

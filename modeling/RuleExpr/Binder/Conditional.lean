import RuleExpr.Binder.Child

/-!
# Conditions and Conditionals

A condition is `boolean`, or `Boolean` and unboxed.  Two branches of different types are brought to
one type: that of the other branch if one converts, else the nearest common superclass, else the
nearest common target.
-/

namespace RuleExpr

open BindM

/-- A bound node as a condition. -/
def asCondition (condition : BoundNode) : BindM BoundNode := do
  if condition.isError then
    return condition
  if condition.ty.isBooleanLike then
    coerce condition .boolean
  else
    errorNode .conditionNotBoolean
      ("condition must be boolean, found '" ++ condition.ty.name ++ "'") condition.span

def bindCondition (child : Child) : BindM BoundNode := do
  asCondition (← child.bind)

/-- Both branches in one type. -/
structure Unified where
  yes : BoundNode
  no : BoundNode
  ty : Ty

/-- A type and its superclasses, without interfaces and the root. -/
def ownClasses (t : Ty) : List Ty :=
  (t :: t.superclassChain).filter fun u => !u.isInterface && !u.isObject

/-- Nearest class that both types have in common. -/
def commonSuperclass (a b : Ty) : Option Ty :=
  if a.isPrimitive || b.isPrimitive then none
  else (ownClasses a).find? fun t => (b :: b.superclassChain).any (·.key = t.key)

def coerceBoth (yes no : BoundNode) (t : Ty) : BindM Unified := do
  let yes ← coerce yes t
  let no ← coerce no t
  return ⟨yes, no, t⟩

/-- Neither branch converts to the type of the other. -/
def widenBoth (yes no : BoundNode) : BindM (Option Unified) := do
  let common ← match commonSuperclass yes.ty no.ty with
    | some t => pure (some t)
    | none => commonType yes.ty no.ty
  match common with
  | some t => some <$> coerceBoth yes no t
  | none =>
    match (← read).config.wideningFailure with
    | .error => return none
    | .keepBranches =>
      report (.ofWarning .branchesKept
        ("branches of type '" ++ yes.ty.name ++ "' and '" ++ no.ty.name ++
          "' share no type; the result is typed as Object")
        (some (yes.span.merge no.span)))
      return some ⟨yes, no, .object⟩

/-- Brings both branches to one type; of two possible conversions the farther one is made. -/
def unify (yes no : BoundNode) : BindM (Option Unified) := do
  if yes.ty.key = no.ty.key then
    return some ⟨yes, no, yes.ty⟩
  if yes.ty.isNull || no.ty.isNull then
    let other := if yes.ty.isNull then no.ty else yes.ty
    return some (← coerceBoth yes no other.box)
  let forward ← implicitCast yes.ty no.ty
  let backward ← implicitCast no.ty yes.ty
  match forward, backward with
  | some f, some b =>
    if b.distance < f.distance then return some ⟨yes.wrap f, no, no.ty⟩
    else return some ⟨yes, no.wrap b, yes.ty⟩
  | some f, none => return some ⟨yes.wrap f, no, no.ty⟩
  | none, some b => return some ⟨yes, no.wrap b, yes.ty⟩
  | none, none => widenBoth yes no

/-- A conditional of bound parts. -/
def conditional (node : SyntaxNode) (condition yes : BoundNode) (no? : Option BoundNode) :
    BindM BoundNode := do
  if condition.isError then
    return condition
  if yes.isError || no?.any (·.isError) then
    return node.poisoned
  match no? with
  | none => return ⟨.conditional condition yes none, yes.ty, node.span⟩
  | some no =>
    match ← unify yes no with
    | some u => return ⟨.conditional condition u.yes (some u.no), u.ty, node.span⟩
    | none =>
      errorNode .incompatibleBranches
        ("branches of type '" ++ yes.ty.name ++ "' and '" ++ no.ty.name ++
          "' have no common type") node.span

def bindConditional (node : SyntaxNode) : List Child → BindM BoundNode
  | [condition, yes, no] => do
    let condition ← bindCondition condition
    let yes ← yes.bind
    let no ← no.bind
    conditional node condition yes (some no)
  | children =>
    if node.kind = .ternary then malformed node (.exactly 3)
    else
      match children with
      | [condition, yes] => do
        let condition ← bindCondition condition
        let yes ← yes.bind
        conditional node condition yes none
      | _ => malformed node (.between 2 3)

end RuleExpr

import RuleExpr.Binder.Bind
import RuleExpr.Bound.Eval
import RuleExpr.Module.Datatype

/-!
# Binding Expressions and Methods

A standalone expression is bound against a module and can then be evaluated.  A method of a module
is bound from its parameters and its body, and joins the methods of the module.
-/

namespace RuleExpr

/-- Settings of an ordinary binding. -/
def BindSettings.standard (config : Config) : BindSettings := ⟨Library.registry, config.sanitized⟩

/-- A bound expression with what it needs to run. -/
structure BoundExpression where
  root : BoundNode
  frameSize : Nat
  diagnostics : List Diagnostic

namespace BoundExpression

def hasErrors (e : BoundExpression) : Bool := e.diagnostics.any (·.isError)

/-- Evaluates the expression in a fresh frame. -/
def evaluate (e : BoundExpression) : Except EvalError Value := e.root.evaluate e.frameSize

end BoundExpression

/-- Binds an expression against a module. -/
def bindExpression (node : SyntaxNode) (owner : RuleModule) (w : Workspace) (config : Config) :
    Except BindError BoundExpression × RuleModule × Workspace :=
  let (result, s) := bind node (.standard config) (.start owner w)
  (result.map fun root => ⟨root, s.nextSlot, s.diagnostics⟩, s.owner, s.workspace)

/-- Declares the parameters of a method as its first variables and answers their slots. -/
def declareParams (span : Span) : List (String × Ty) → BindM (List (Option Nat))
  | [] => return []
  | (name, t) :: rest => do
    let var? ← BindM.addVar LocalVar.localNs name t span
    return var?.map (·.slot) :: (← declareParams span rest)

/-- Binds the body of a method; with a declared type it is converted to that type. -/
def bindBody (params : List (String × Ty)) (returns : Option Ty) (body : SyntaxNode) :
    BindM (List (Option Nat) × BoundNode) := do
  let slots ← declareParams body.span params
  let root ← bind body
  match returns with
  | some t => return (slots, ← BindM.coerce root t)
  | none => return (slots, root)

/-- Binds a static method and adds it to the module, together with what was reported on its
body. -/
def bindMethod (owner : RuleModule) (w : Workspace) (name : String) (params : List (String × Ty))
    (returns : Option Ty) (body : SyntaxNode) (config : Config) :
    Except BindError Method × RuleModule × Workspace :=
  let (result, s) := bindBody params returns body (.standard config) (.start owner w)
  match result with
  | .error e => (.error e, s.owner, s.workspace)
  | .ok (slots, root) =>
    let owner := s.owner.report s.diagnostics
    let (id, w) := s.workspace.freshMethod
    let head : MethodHead :=
      ⟨id, name, params.map (·.2), returns.getD root.ty, owner.name, .static, none⟩
    let method := Method.defined head slots s.nextSlot root
    match owner.addMethod method with
    | .ok owner => (.ok method, owner, w)
    | .error e => (.error (.module e), owner, w)

end RuleExpr

import RuleExpr.Binder.Child
import RuleExpr.Binder.TypeReference

/-!
# Calls

A free call resolves among the methods of the module and the operators, a member call among the
methods of the type of its receiver, and `new` among the constructors of its type.
-/

namespace RuleExpr

open BindM

def ambiguous (methods : List Method) (name : String) (arguments : List Ty) (span : Span) :
    BindM BoundNode :=
  errorNode .ambiguousMethod
    ("call '" ++ Overload.describeCall name arguments ++ "' is ambiguous between " ++
      String.intercalate " and " (methods.map (·.signature))) span

/-- Warns of a deprecated method, if the settings ask for it. -/
def reportDeprecation (method : Method) (span : Span) : BindM Unit := do
  if let some note := method.head.deprecated then
    if (← read).config.reportDeprecations then
      report (.ofWarning .deprecatedMethod
        ("'" ++ method.signature ++ "' is deprecated: " ++ note) (some span))

/-- The call of a selected method with its arguments converted. -/
def buildCall (selection : Selection) (target : Option BoundNode) (arguments : List BoundNode)
    (span : Span) : BindM BoundNode := do
  let method := selection.method
  reportDeprecation method span
  let arguments := (arguments.zip selection.casts).map fun (argument, cast) => argument.wrap cast
  let shape : BoundShape :=
    if method.head.kind = .constructor then .constructor method arguments
    else .methodCall method target arguments
  return ⟨shape, method.returns, span⟩

/-- Resolves a call among `candidates` and builds it.  A static method drops the receiver. -/
def callResolved (candidates : List Method) (name : String) (receiver : Option BoundNode)
    (arguments : List BoundNode) (span : Span) : BindM BoundNode := do
  let types := arguments.map (·.ty)
  match ← resolve candidates name types with
  | .found selection =>
    buildCall selection (if selection.method.head.isStatic then none else receiver) arguments span
  | .notFound =>
    errorNode .methodNotFound
      ("method '" ++ Overload.describeCall name types ++ "' is not found") span
  | .ambiguous methods => ambiguous methods name types span

def bindMethodCall (node : SyntaxNode) (children : List Child) : BindM BoundNode := do
  let arguments ← bindAll children
  if arguments.any (·.isError) then
    return node.poisoned
  callResolved (← findMethods node.text) node.text none arguments node.span

def bindMemberCall (node : SyntaxNode) : List Child → BindM BoundNode
  | [] => malformed node (.atLeast 1)
  | receiver :: rest => do
    let receiver ← receiver.bind
    let arguments ← bindAll rest
    if receiver.isError || arguments.any (·.isError) then
      return node.poisoned
    let candidates := (← get).workspace.declarations.methodsNamed receiver.ty node.text
    callResolved candidates node.text (some receiver) arguments node.span

/-- Constructs an object of type `t`. -/
def construct (t : Ty) (arguments : List BoundNode) (span : Span) : BindM BoundNode := do
  let types := arguments.map (·.ty)
  let constructors := (← get).workspace.declarations.constructors t
  let name := (constructors.head?.map (·.name)).getD t.name
  match ← resolve constructors name types with
  | .found selection => buildCall selection none arguments span
  | .notFound =>
    errorNode .constructorNotFound
      ("constructor '" ++ Overload.describeCall t.name types ++ "' is not found") span
  | .ambiguous methods => ambiguous methods t.name types span

def bindNew (node : SyntaxNode) : List Child → BindM BoundNode
  | [] => malformed node (.atLeast 1)
  | type :: rest => do
    let t? ← resolveType type.node
    let arguments ← bindAll rest
    match t? with
    | none => return node.poisoned
    | some t =>
      if arguments.any (·.isError) then
        return node.poisoned
      construct t arguments node.span

end RuleExpr

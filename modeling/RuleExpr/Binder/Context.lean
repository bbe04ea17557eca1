import RuleExpr.Config.Basic
import RuleExpr.Module.Import
import RuleExpr.Operators.Library
import RuleExpr.Overload

/-!
# Binding Contexts

Binding runs in a context: the module bound against, the open scopes of local variables, the
receivers whose fields can be named without them, and what has been reported.  Ordinary mistakes of
the source are reported and leave an error node; `BindError` is for what should not happen.  The
context outlives an error.
-/

namespace RuleExpr

structure LocalVar where
  ns : String
  name : String
  ty : Ty
  slot : Nat

/-- Namespace of ordinary variables. -/
def LocalVar.localNs : String := "local"

inductive BindError where
  | scopeUnderflow
  | cast (error : CastError)
  | module (error : ModuleError)
  deriving DecidableEq, Repr

def BindError.message : BindError → String
  | scopeUnderflow => "local variable scope stack underflow"
  | cast error => error.message
  | module error => error.message

/-- What stays the same while binding. -/
structure BindSettings where
  registry : Registry
  config : Config

structure BindState where
  owner : RuleModule
  workspace : Workspace
  /-- Open scopes, innermost first, each in the order of declaration. -/
  scopes : List (List LocalVar)
  /-- Receivers with the number of scopes that were open when they were added. -/
  receivers : List (Nat × LocalVar)
  diagnostics : List Diagnostic
  nextSlot : Nat
  /-- Nodes being bound around the current one. -/
  depth : Nat

abbrev BindM := ReaderT BindSettings (ExceptT BindError (StateM BindState))

namespace BindState

/-- A fresh context over a module, whose imports are brought up to date. -/
def start (owner : RuleModule) (workspace : Workspace) : BindState :=
  let (owner, workspace) := owner.ensureImports workspace
  ⟨owner, workspace, [[]], [], [], 0, 0⟩

def pushScope (s : BindState) : BindState := { s with scopes := [] :: s.scopes }

def scopeDepth (s : BindState) : Nat := s.scopes.length

/-- Closes the innermost scope with the receivers added in it; the outermost one stays open. -/
def popScope (s : BindState) : Except BindError BindState :=
  match s.scopes with
  | _ :: outer :: rest =>
    .ok { s with
      scopes := outer :: rest
      receivers := s.receivers.filter (·.1 < s.scopeDepth) }
  | _ => .error .scopeUnderflow

/-- As `popScope`, but leaves the outermost scope as it is. -/
def closeScope (s : BindState) : BindState :=
  match s.popScope with
  | .ok closed => closed
  | .error _ => s

def declaredHere (s : BindState) (ns name : String) : Bool :=
  (s.scopes.headD []).any fun var => var.ns = ns && var.name = name

def sameIgnoringCase (a b : String) : Bool :=
  a.toList.map Char.toLower == b.toList.map Char.toLower

/-- Innermost variable of a name, the latest one first. -/
def findVar (s : BindState) (ns name : String) (strict : Bool) : Option LocalVar :=
  s.scopes.findSome? fun scope => scope.reverse.find? fun var =>
    var.ns = ns && if strict then var.name == name else sameIgnoringCase var.name name

def hasVar (s : BindState) (ns name : String) : Bool := (s.findVar ns name true).isSome

/-- First name that no visible variable has: the stem alone, or with the least number that makes
it so.  One number more than there are variables is enough to look through. -/
def hiddenVarName (s : BindState) (stem : String) : String :=
  let names := stem :: (List.range (s.scopes.flatten.length + 1)).map (stem ++ toString ·)
  (names.find? (!s.hasVar LocalVar.localNs ·)).getD stem

/-- Innermost receiver with a field of the given name. -/
def findReceiverField (s : BindState) (name : String) : Option (LocalVar × Field) :=
  s.receivers.reverse.findSome? fun (_, var) =>
    (s.workspace.declarations.field? var.ty name).map (var, ·)

def hasErrors (s : BindState) : Bool := s.diagnostics.any (·.isError)

end BindState

namespace BindM

/-- Runs `act` in a scope of its own, which is closed also when it fails. -/
def inScope {α : Type} (act : BindM α) : BindM α := fun settings s =>
  let (result, s) := act settings s.pushScope
  (result, s.closeScope)

/-- Closes the innermost scope. -/
def popScope : BindM Unit := fun _ s =>
  match s.popScope with
  | .ok s' => (.ok (), s')
  | .error e => (.error e, s)

def report (diagnostic : Diagnostic) : BindM Unit :=
  modify fun s => { s with diagnostics := s.diagnostics ++ [diagnostic] }

def reportError (code : Code) (message : String) (span : Span) : BindM Unit :=
  report (.ofError code message (some span))

/-- Reports an error and answers the node that stands for what could not be bound. -/
def errorNode (code : Code) (message : String) (span : Span) : BindM BoundNode := do
  reportError code message span
  return .failure message span

/-- Declares a variable in the innermost scope; a second one of its name there is reported. -/
def addVar (ns name : String) (ty : Ty) (span : Span) : BindM (Option LocalVar) := do
  let s ← get
  if s.declaredHere ns name then
    reportError .duplicateVariable ("variable '" ++ name ++ "' is already defined in this scope")
      span
    return none
  else
    let var : LocalVar := ⟨ns, name, ty, s.nextSlot⟩
    set { s with
      nextSlot := s.nextSlot + 1
      scopes := match s.scopes with
        | scope :: outer => (scope ++ [var]) :: outer
        | [] => [] }
    return some var

/-- Lookup of a local variable as the settings say. -/
def lookupVar (name : String) : BindM (Option LocalVar) := do
  return (← get).findVar LocalVar.localNs name (← read).config.strictVariableLookup

/-- Makes the fields of a variable visible until the innermost scope is closed. -/
def addReceiver (var : LocalVar) : BindM Unit :=
  modify fun s => { s with receivers := s.receivers ++ [(s.scopeDepth, var)] }

def findType (name : String) : BindM (Option Ty) := do
  return (← get).owner.findType name

/-- The array type over `component` in the type space of the module. -/
def arrayOf (component : Ty) : BindM Ty := do
  let s ← get
  let (t, workspace) := s.workspace.arrayOf s.owner.space component
  set { s with workspace }
  return t

def getField (name : String) : BindM (Option Field) := do
  let s ← get
  let (field, owner) := s.owner.getField name
  set { s with owner }
  return field

def fieldOf (t : Ty) (name : String) : BindM (Option Field) := do
  return (← get).workspace.declarations.field? t name

/-- Methods of a name that can be called without receiver: those of the module, then the operators
of the library. -/
def findMethods (name : String) : BindM (List Method) := do
  return (← get).owner.methodsNamed name ++ Library.operatorsNamed name

def ofCast {α : Type} (r : Except CastError α) : BindM α :=
  match r with
  | .ok a => return a
  | .error e => throw (.cast e)

def castBetween (source target : Ty) : BindM (Option Cast) := do
  ofCast ((← read).registry.cast source target)

def implicitCast (source target : Ty) : BindM (Option Cast) := do
  ofCast ((← read).registry.implicitCast source target)

def commonType (a b : Ty) : BindM (Option Ty) := do
  ofCast ((← read).registry.commonType a b)

def resolve (candidates : List Method) (name : String) (arguments : List Ty) :
    BindM Resolution := do
  ofCast (Overload.resolve (← read).registry candidates name arguments)

end BindM

/-- The node converted by a cast, which is left out when it does nothing. -/
def BoundNode.wrap (node : BoundNode) (cast : Cast) : BoundNode :=
  if cast.isIdentity then node else ⟨.cast node cast, cast.target, node.span⟩

/-- Converts a node implicitly to `target`, or reports that it does not convert.  An error node
stays as it is. -/
def BindM.coerce (node : BoundNode) (target : Ty) : BindM BoundNode := do
  if node.isError || node.ty.key = target.key then
    return node
  else
    match ← BindM.implicitCast node.ty target with
    | some cast => return node.wrap cast
    | none =>
      errorNode .typeMismatch
        ("cannot convert '" ++ node.ty.name ++ "' to '" ++ target.name ++ "'") node.span

end RuleExpr

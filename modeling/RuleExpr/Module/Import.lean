import RuleExpr.Module.Basic

/-!
# Importing Dependencies

Importing goes through the dependencies in order and takes from each its own types and methods and
then those it has imported itself.  A dependency with errors is left out with a warning.  The first
method of a key is taken; two types of a key have to agree.
-/

namespace RuleExpr

/-- What has been imported so far. -/
structure Imports where
  types : TypeTable
  methods : List Method
  errors : List ModuleError
  warnings : List Diagnostic

namespace Imports

def empty : Imports := ⟨[], [], [], []⟩

def addError (i : Imports) (error : ModuleError) : Imports :=
  { i with errors := i.errors ++ [error] }

/-- Takes a type unless its key is taken, by a type of the same structure. -/
def addType (d : Declarations) (own : TypeTable) (dependency : String) (i : Imports) (t : Ty) :
    Imports :=
  match Assoc.get? own t.key <|> Assoc.get? i.types t.key with
  | some known =>
    if d.structurallyEqual known t then i
    else i.addError (.typeConflict t.key (some dependency))
  | none => { i with types := i.types ++ [(t.key, t)] }

/-- Takes a method unless its key is taken, and records where it comes from. -/
def addMethod (dependency : String) (state : Imports × Workspace) (method : Method) :
    Imports × Workspace :=
  let (i, w) := state
  if i.methods.any (·.key = method.key) then (i, w)
  else ({ i with methods := i.methods ++ [method] }, (w.tagOrigin method dependency).2)

def offerMethod (filter : Option MethodFilter) (dependency : String)
    (state : Imports × Workspace) (method : Method) : Imports × Workspace :=
  if method.head.isSynthetic then state
  else
    match filter.elim .accept (· dependency method.head) with
    | .accept => addMethod dependency state method
    | .skip => state
    | .reject reason =>
      (state.1.addError (.methodRejected dependency method.signature reason), state.2)

def skipWarning (dependency : String) : Diagnostic :=
  .ofWarning .dependencyHasErrors
    ("dependency '" ++ dependency ++ "' has errors and was not imported") none

def addDependency (own : TypeTable) (filter : Option MethodFilter)
    (state : Imports × Workspace) (dependency : Dependency) : Imports × Workspace :=
  let (i, w) := state
  if dependency.hasErrors then
    ({ i with warnings := i.warnings ++ [skipWarning dependency.name] }, w)
  else
    let source := dependency.compiled.source
    let types := Assoc.values (source.types ++ source.importedTypes)
    let i := types.foldl (addType w.declarations own dependency.name) i
    (source.methods ++ source.importedMethods).foldl (offerMethod filter dependency.name) (i, w)

end Imports

namespace RuleModule

/-- Computes the imports anew. -/
def importDependencies (m : RuleModule) (w : Workspace) : RuleModule × Workspace :=
  let (i, w) := m.dependencies.foldl (Imports.addDependency m.types m.filter) (.empty, w)
  ({ m with
      importedTypes := i.types
      importedMethods := i.methods
      importErrors := i.errors
      importWarnings := i.warnings
      fieldCache := none
      importsCurrent := true }, w)

/-- Computes the imports unless they are current. -/
def ensureImports (m : RuleModule) (w : Workspace) : RuleModule × Workspace :=
  if m.importsCurrent then (m, w) else m.importDependencies w

def addDependency (m : RuleModule) (dependency : Dependency) : RuleModule :=
  { m with
    dependencies := m.dependencies ++ [dependency]
    fieldCache := none
    importsCurrent := false }

def setFilter (m : RuleModule) (filter : MethodFilter) : RuleModule :=
  { m with filter := some filter, importsCurrent := false }

def importDiagnostic (error : ModuleError) : Diagnostic :=
  let code := match error with
    | .methodRejected _ _ _ => Code.methodImportRejected
    | _ => .typeConflict
  .ofError code error.message none

/-- Freezes the module with everything reported against it. -/
def compile (m : RuleModule) (w : Workspace) : CompiledModule × Workspace :=
  let (m, w) := m.ensureImports w
  (⟨m, m.importWarnings ++ m.importErrors.map importDiagnostic ++ m.diagnostics⟩, w)

end RuleModule

end RuleExpr

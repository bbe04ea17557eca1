import RuleExpr.Syntax.Span

/-!
# Diagnostics

What binding reports: a code with its severity, a message and the place.  Every code has a title
and a hint.
-/

namespace RuleExpr

/-- What a diagnostic is about. -/
inductive Code where
  | malformedNode
  | conditionNotBoolean
  | typeNotFound
  | methodNotFound
  | ambiguousMethod
  | constructorNotFound
  | incompatibleBranches
  | notAggregate
  | unknownIdentifier
  | duplicateVariable
  | fieldNotFound
  | invalidCast
  | invalidLiteral
  | deprecatedMethod
  | nestingTooDeep
  | typeMismatch
  | dependencyHasErrors
  | typeConflict
  | methodImportRejected
  | branchesKept
  deriving DecidableEq, Repr

namespace Code

/-- All codes, in the order of their texts. -/
def all : List Code :=
  [malformedNode, conditionNotBoolean, typeNotFound, methodNotFound, ambiguousMethod,
    constructorNotFound, incompatibleBranches, notAggregate, unknownIdentifier, duplicateVariable,
    fieldNotFound, invalidCast, invalidLiteral, deprecatedMethod, nestingTooDeep, typeMismatch,
    dependencyHasErrors, typeConflict, methodImportRejected, branchesKept]

/-- The code as it is shown. -/
def text : Code → String
  | malformedNode => "RL1001"
  | conditionNotBoolean => "RL1002"
  | typeNotFound => "RL1003"
  | methodNotFound => "RL1004"
  | ambiguousMethod => "RL1005"
  | constructorNotFound => "RL1006"
  | incompatibleBranches => "RL1007"
  | notAggregate => "RL1008"
  | unknownIdentifier => "RL1009"
  | duplicateVariable => "RL1010"
  | fieldNotFound => "RL1011"
  | invalidCast => "RL1012"
  | invalidLiteral => "RL1013"
  | deprecatedMethod => "RL1014"
  | nestingTooDeep => "RL1015"
  | typeMismatch => "RL1016"
  | dependencyHasErrors => "RL1017"
  | typeConflict => "RL1018"
  | methodImportRejected => "RL1019"
  | branchesKept => "RL1020"

/-- What is wrong, in a few words. -/
def title : Code → String
  | malformedNode => "Malformed expression"
  | conditionNotBoolean => "Condition is not boolean"
  | typeNotFound => "Unknown type"
  | methodNotFound => "Method not found"
  | ambiguousMethod => "Ambiguous method call"
  | constructorNotFound => "Constructor not found"
  | incompatibleBranches => "Branches have no common type"
  | notAggregate => "Not an array or collection"
  | unknownIdentifier => "Unknown identifier"
  | duplicateVariable => "Duplicate variable"
  | fieldNotFound => "Field not found"
  | invalidCast => "Invalid cast"
  | invalidLiteral => "Invalid literal"
  | deprecatedMethod => "Deprecated method"
  | nestingTooDeep => "Expression nested too deeply"
  | typeMismatch => "Type mismatch"
  | dependencyHasErrors => "Dependency failed to compile"
  | typeConflict => "Conflicting type definition"
  | methodImportRejected => "Method import rejected"
  | branchesKept => "Branches kept unconverted"

/-- What can be done about it. -/
def help : Code → String
  | malformedNode => "The node has an unexpected number of children; check the parser output."
  | conditionNotBoolean =>
    "Conditions of `if`, `?:` and aggregate filters must be boolean or Boolean."
  | typeNotFound => "Declare the datatype in this module or add the dependency that defines it."
  | methodNotFound =>
    "No overload accepts these argument types; add an explicit cast or a matching overload."
  | ambiguousMethod => "Several overloads are equally close; cast an argument to select one."
  | constructorNotFound => "No constructor of the type accepts these argument types."
  | incompatibleBranches => "Cast one branch so that both branches share a type."
  | notAggregate =>
    "Aggregate selections and indexing need an array or collection on the left."
  | unknownIdentifier =>
    "The name is neither a local variable, a field in scope nor a module field."
  | duplicateVariable => "A variable with this name already exists in the same scope."
  | fieldNotFound => "The type declares no field with this name."
  | invalidCast => "No conversion exists between these types."
  | invalidLiteral => "The literal text does not fit its declared kind."
  | deprecatedMethod => "The selected method is deprecated; see its note for a replacement."
  | nestingTooDeep => "Split the expression or raise `max_bind_depth`."
  | typeMismatch => "The value cannot be implicitly converted to the required type."
  | dependencyHasErrors => "Types and methods of a dependency with errors are not imported."
  | typeConflict => "Two different definitions share one namespace-qualified name."
  | methodImportRejected => "The module's import filter refused a dependency method."
  | branchesKept => "The branches share no type; the result is typed as Object."

/-- The code that is shown as `text`. -/
def ofText? (text : String) : Option Code := all.find? (·.text == text)

theorem ofText?_text (code : Code) : ofText? code.text = some code := by
  cases code <;> decide

end Code

inductive Severity where
  | warning
  | error
  deriving DecidableEq, Repr

structure Diagnostic where
  code : Code
  severity : Severity
  message : String
  span : Option Span
  deriving DecidableEq, Repr

namespace Diagnostic

def ofError (code : Code) (message : String) (span : Option Span) : Diagnostic :=
  ⟨code, .error, message, span⟩

def ofWarning (code : Code) (message : String) (span : Option Span) : Diagnostic :=
  ⟨code, .warning, message, span⟩

def isError (d : Diagnostic) : Bool := d.severity == .error

/-- The diagnostic on one line, its place at the end if it has one. -/
def render (d : Diagnostic) : String :=
  (if d.isError then "error" else "warning") ++ "[" ++ d.code.text ++ "]: " ++ d.message ++
    (match d.span with
      | some span => " at " ++ span.render
      | none => "")

end Diagnostic

end RuleExpr

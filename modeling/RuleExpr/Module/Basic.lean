import RuleExpr.Diagnostic
import RuleExpr.Text.UpperCase
import RuleExpr.Workspace

/-!
# Rule Modules

A module owns types, methods and fields, and sees those of the compiled modules it depends on.
What it imports is kept in tables of its own, which are brought up to date by importing.  Whatever
a module declares itself comes before anything imported.
-/

namespace RuleExpr

inductive ModuleError where
  | typeConflict (key : TypeKey) (dependency : Option String)
  | methodRejected (dependency signature reason : String)
  | duplicateField (moduleName name : String)
  | duplicateMethod (moduleName signature : String)
  | type (error : TypeError)
  deriving DecidableEq, Repr

def ModuleError.message : ModuleError → String
  | typeConflict key dependency =>
    "type '" ++ key.render ++ "' is already defined with a different structure" ++
      (match dependency with
        | some name => " (imported from '" ++ name ++ "')"
        | none => "")
  | methodRejected dependency signature reason =>
    "method '" ++ signature ++ "' from dependency '" ++ dependency ++ "' was rejected: " ++ reason
  | duplicateField moduleName name =>
    "field '" ++ name ++ "' is already defined in module '" ++ moduleName ++ "'"
  | duplicateMethod moduleName signature =>
    "method '" ++ signature ++ "' is already defined in module '" ++ moduleName ++ "'"
  | type error => error.message

/-- What becomes of a method offered by a dependency. -/
inductive ImportDecision where
  | accept
  | skip
  /-- The method is refused, which is an error of the module. -/
  | reject (reason : String)
  deriving DecidableEq, Repr

/-- Decides by the name of the dependency and the declaration of the method. -/
abbrev MethodFilter := String → MethodHead → ImportDecision

abbrev FieldTable := List (String × Field)

abbrev TypeTable := List (TypeKey × Ty)

mutual

structure RuleModule where
  name : String
  ns : String
  types : TypeTable
  methods : List Method
  fields : FieldTable
  dependencies : List Dependency
  importedTypes : TypeTable
  importedMethods : List Method
  /-- Fields of the dependencies, once they have been asked for. -/
  fieldCache : Option FieldTable
  /-- Whether the imported tables reflect the dependencies. -/
  importsCurrent : Bool
  importErrors : List ModuleError
  importWarnings : List Diagnostic
  diagnostics : List Diagnostic
  filter : Option MethodFilter
  /-- Number of the type space in which array types are interned. -/
  space : Nat

/-- A module that no longer changes, with everything reported against it. -/
structure CompiledModule where
  source : RuleModule
  diagnostics : List Diagnostic

/-- A compiled module under the name by which another one refers to it. -/
structure Dependency where
  name : String
  compiled : CompiledModule

end

def CompiledModule.hasErrors (c : CompiledModule) : Bool := c.diagnostics.any (·.isError)

def Dependency.hasErrors (d : Dependency) : Bool := d.compiled.hasErrors

namespace RuleModule

def empty (name ns : String) (space : Nat) : RuleModule :=
  { name, ns, space, types := [], methods := [], fields := [], dependencies := [],
    importedTypes := [], importedMethods := [], fieldCache := none, importsCurrent := false,
    importErrors := [], importWarnings := [], diagnostics := [], filter := none }

/-- Adds an own type.  A type with the structure of a registered one stands for it. -/
def addType (m : RuleModule) (d : Declarations) (t : Ty) : Except ModuleError (Ty × RuleModule) :=
  match Assoc.get? m.types t.key with
  | some known =>
    if d.structurallyEqual known t then .ok (known, m)
    else .error (.typeConflict t.key none)
  | none => .ok (t, { m with types := m.types ++ [(t.key, t)] })

/-- Splits a name at its last dot. -/
def splitQualified (name : String) : Option QName :=
  let simple := (name.toList.reverse.takeWhile (· ≠ '.')).reverse
  let rest := name.toList.reverse.dropWhile (· ≠ '.')
  match rest with
  | [] => none
  | _ :: ns => some ⟨String.ofList ns.reverse, String.ofList simple⟩

/-- Type of a qualified name among the own and the imported ones. -/
def findQualified (m : RuleModule) (name : String) : Option Ty := do
  let key : TypeKey := ⟨← splitQualified name, 0⟩
  Assoc.get? m.types key <|> Assoc.get? m.importedTypes key

/-- Type of a name: own types, then imported ones, then the built-in ones. -/
def findType (m : RuleModule) (name : String) : Option Ty :=
  m.findQualified name <|>
    (Assoc.values (m.types ++ m.importedTypes)).find? (·.name == name) <|>
    Ty.builtin? name

def addMethod (m : RuleModule) (method : Method) : Except ModuleError RuleModule :=
  if m.methods.any (·.key = method.key) then .error (.duplicateMethod m.name method.signature)
  else .ok { m with methods := m.methods ++ [method] }

/-- Own methods of a name, then the imported ones whose keys are not among them. -/
def methodsNamed (m : RuleModule) (name : String) : List Method :=
  let own := m.methods.filter (·.name = name)
  own ++ m.importedMethods.filter fun method =>
    method.name = name && !own.any (·.key = method.key)

/-- Name of the method that reads a field: `get` and the name with a capital. -/
def accessorName (field : String) : String :=
  match field.toList with
  | [] => "get"
  | first :: rest => "get" ++ String.ofList (Text.upperCase first ++ rest)

/-- Method that reads a field; an ordinary field reads as unwritten. -/
def accessor (m : RuleModule) (id : Nat) (field : Field) : Method :=
  let value := field.constant.getD field.ty.defaultValue
  .native ⟨id, accessorName field.name, [], field.ty, m.name, .synthetic, none⟩
    fun _ _ => .ok value

/-- Adds a field together with the method that reads it, which gets the number `id`. -/
def addField (m : RuleModule) (id : Nat) (field : Field) : Except ModuleError RuleModule :=
  if Assoc.contains m.fields field.name then .error (.duplicateField m.name field.name)
  else
    .ok { m with
      methods := m.methods ++ [m.accessor id field]
      fields := m.fields ++ [(field.name, field)] }

end RuleModule

mutual

/-- Fields that a module sees, own ones first. -/
def RuleModule.visibleFields : RuleModule → FieldTable
  | ⟨_, _, _, _, fields, dependencies, _, _, cache, _, _, _, _, _, _⟩ =>
    Assoc.merge fields (match cache with
      | some known => known
      | none => mergedFields dependencies)

def Dependency.visibleFields : Dependency → FieldTable
  | ⟨_, ⟨source, diagnostics⟩⟩ =>
    if diagnostics.any (·.isError) then [] else source.visibleFields

/-- Fields of the dependencies without errors; earlier dependencies come first. -/
def mergedFields : List Dependency → FieldTable
  | [] => []
  | dependency :: rest => Assoc.merge dependency.visibleFields (mergedFields rest)

end

namespace RuleModule

/-- Fields of the dependencies, which are remembered. -/
def dependencyFields (m : RuleModule) : FieldTable × RuleModule :=
  match m.fieldCache with
  | some known => (known, m)
  | none =>
    let merged := mergedFields m.dependencies
    (merged, { m with fieldCache := some merged })

/-- Own field, else that of the first dependency that has one. -/
def getField (m : RuleModule) (name : String) : Option Field × RuleModule :=
  match Assoc.get? m.fields name with
  | some field => (some field, m)
  | none =>
    let (fields, m) := m.dependencyFields
    (Assoc.get? fields name, m)

def allFields (m : RuleModule) : FieldTable × RuleModule :=
  let (fields, m) := m.dependencyFields
  (Assoc.merge m.fields fields, m)

def report (m : RuleModule) (diagnostics : List Diagnostic) : RuleModule :=
  { m with diagnostics := m.diagnostics ++ diagnostics }

end RuleModule

end RuleExpr

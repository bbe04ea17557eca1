import RuleExpr.Declarations
import RuleExpr.Text.Quoted
import RuleExpr.Ty.Space

/-!
# Workspaces

What the modules of one compilation share: the members of all types, the type spaces, and for each
method the module it was first imported from.  Numbers for new types and methods are handed out
here, so that no two declarations get the same.
-/

namespace RuleExpr

open RuleExpr.Text (quote)

structure Workspace where
  declarations : Declarations
  /-- Module from which a method was first imported, by the number of the method. -/
  origins : List (Nat × String)
  spaces : List TypeSpace
  nextType : Nat
  nextMethod : Nat

namespace Workspace

/-- Methods of the standard library all have the number zero. -/
def empty : Workspace := ⟨.empty, [], [], 0, 1⟩

def freshType (w : Workspace) : Nat × Workspace :=
  (w.nextType, { w with nextType := w.nextType + 1 })

def freshMethod (w : Workspace) : Nat × Workspace :=
  (w.nextMethod, { w with nextMethod := w.nextMethod + 1 })

def origin? (w : Workspace) (method : Method) : Option String :=
  Assoc.get? w.origins method.head.id

/-- Records the origin of a method unless it has one; the flag tells whether it was recorded. -/
def tagOrigin (w : Workspace) (method : Method) (moduleName : String) : Bool × Workspace :=
  if (w.origin? method).isSome then (false, w)
  else (true, { w with origins := w.origins ++ [(method.head.id, moduleName)] })

def newSpace (w : Workspace) : Nat × Workspace :=
  (w.spaces.length, { w with spaces := w.spaces ++ [.empty] })

def space (w : Workspace) (number : Nat) : TypeSpace := w.spaces[number]?.getD .empty

def setSpace (w : Workspace) (number : Nat) (space : TypeSpace) : Workspace :=
  { w with spaces := w.spaces.set number space }

/-- The array type over `component` in the given space. -/
def arrayOf (w : Workspace) (number : Nat) (component : Ty) : Ty × Workspace :=
  let (t, space) := (w.space number).arrayOf component
  (t, w.setSpace number space)

def describeName (name : QName) : String :=
  "Named \x7b namespace: " ++ quote name.ns ++ ", name: " ++ quote name.name ++ " \x7d"

def describeKey (key : TypeKey) : String :=
  if key.dimensions = 0 then describeName key.element
  else
    "Array \x7b element: " ++ describeName key.element ++ ", dimensions: " ++
      toString key.dimensions ++ " \x7d"

/-- Declaration and origin of a method on one line. -/
def describeMethod (w : Workspace) (method : Method) : String :=
  let origin := match w.origin? method with
    | some name => "Some(" ++ quote name ++ ")"
    | none => "None"
  "OpenMethod \x7b signature: " ++ quote method.signature ++ ", return_type: " ++
    describeKey method.returns.key ++ ", kind: " ++ method.head.kind.label ++ ", module: " ++
    origin ++ " \x7d"

end Workspace

end RuleExpr

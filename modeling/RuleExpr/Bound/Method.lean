import RuleExpr.Ty.Basic

/-!
# Declarations of Methods and Fields

What is known of a method without running it, and of a field without reading it.  Within one table
a method is identified by its key, the name with the types of the parameters; the number in its
head tells apart methods that happen to have equal declarations.
-/

namespace RuleExpr

inductive MethodKind where
  | static
  /-- Called on a receiver. -/
  | member
  | constructor
  /-- Made by the compiler; stays in its module. -/
  | synthetic
  deriving DecidableEq, Repr

def MethodKind.label : MethodKind → String
  | static => "Static"
  | member => "Instance"
  | constructor => "Constructor"
  | synthetic => "Synthetic"

structure MethodKey where
  name : String
  params : List TypeKey
  deriving DecidableEq, Repr

/-- A name applied to types, such as `f(int, String)`. -/
def renderCall (name : String) (types : List TypeKey) : String :=
  name ++ "(" ++ String.intercalate ", " (types.map TypeKey.render) ++ ")"

def MethodKey.render (key : MethodKey) : String := renderCall key.name key.params

/-- The declaration of a method. -/
structure MethodHead where
  id : Nat
  name : String
  params : List Ty
  returns : Ty
  declaringType : String
  kind : MethodKind
  deprecated : Option String

namespace MethodHead

def arity (head : MethodHead) : Nat := head.params.length

def key (head : MethodHead) : MethodKey := ⟨head.name, head.params.map Ty.key⟩

def signature (head : MethodHead) : String := head.key.render

/-- Whether the method is called without a receiver. -/
def isStatic (head : MethodHead) : Bool := head.kind != .member

def isSynthetic (head : MethodHead) : Bool := head.kind == .synthetic

end MethodHead

structure Field where
  name : String
  ty : Ty
  declaringType : String
  isStatic : Bool
  /-- The fixed value of a constant. -/
  constant : Option Value

namespace Field

def plain (name : String) (ty : Ty) (declaringType : String) : Field :=
  ⟨name, ty, declaringType, false, none⟩

def ofConstant (name : String) (ty : Ty) (declaringType : String) (value : Value) : Field :=
  ⟨name, ty, declaringType, true, some value⟩

end Field

end RuleExpr

import RuleExpr.Value.Basic

/-!
# Types

A type is one of the built-in types, a declared class, interface or collection, or an array.  A
declared class or interface carries its direct super-types, so hierarchies are finite and without
cycles by construction.  What a type declares as members is kept apart from the type, because
members may refer back to it; the number given to a declaration leads to them.

Two types are the same to the language when their keys are: the qualified name of the innermost
element and the number of array dimensions.  Different declarations may share a key.
-/

namespace RuleExpr

open RuleExpr.Number

structure QName where
  ns : String
  name : String
  deriving DecidableEq, Repr

/-- Identity of a type: the qualified name of its innermost element and its dimensions. -/
structure TypeKey where
  element : QName
  dimensions : Nat
  deriving DecidableEq, Repr

namespace TypeKey

def brackets (dimensions : Nat) : String :=
  String.join (List.replicate dimensions "[]")

/-- Simple name, as messages show types. -/
def render (key : TypeKey) : String :=
  key.element.name ++ brackets key.dimensions

/-- Name with the namespace in front, if there is one. -/
def renderQualified (key : TypeKey) : String :=
  (if key.element.ns = "" then "" else key.element.ns ++ ".") ++ key.render

end TypeKey

inductive Ty where
  | primitive (kind : Primitive)
  /-- Class of the objects that hold one primitive value. -/
  | boxed (kind : Primitive)
  | bigInteger
  | bigDecimal
  /-- Class of the values of a domain quantity built on a numeric kind. -/
  | wrapper (kind : MetaKind)
  | string
  /-- Root of all types whose values may be null. -/
  | object
  /-- Common super-type of the numeric classes. -/
  | number
  /-- Collection of arbitrary elements. -/
  | list
  /-- Type of the null literal. -/
  | null
  | void
  /-- Type of a node that could not be bound. -/
  | error
  | record (id : Nat) (name : QName) (supers : List Ty)
  | interface (id : Nat) (name : QName) (supers : List Ty)
  | collection (id : Nat) (name : QName) (element : Ty)
  | array (component : Ty)
  deriving Inhabited

namespace Ty

abbrev boolean : Ty := primitive .boolean

abbrev int : Ty := primitive .int

abbrev double : Ty := primitive .double

/-- Qualified name of a type that is not an array; an array has the name of its innermost
element. -/
def elementName : Ty → QName
  | primitive kind => ⟨"", kind.name⟩
  | boxed kind => ⟨"lang", kind.boxedName⟩
  | bigInteger => ⟨"math", "BigInteger"⟩
  | bigDecimal => ⟨"math", "BigDecimal"⟩
  | wrapper kind => ⟨"meta", kind.numeric.metaName⟩
  | string => ⟨"lang", "String"⟩
  | object => ⟨"lang", "Object"⟩
  | number => ⟨"lang", "Number"⟩
  | list => ⟨"lang", "List"⟩
  | null => ⟨"", "null"⟩
  | void => ⟨"", "void"⟩
  | error => ⟨"", "<error>"⟩
  | record _ name _ => name
  | interface _ name _ => name
  | collection _ name _ => name
  | array component => component.elementName

def dimensions : Ty → Nat
  | array component => component.dimensions + 1
  | _ => 0

def key (t : Ty) : TypeKey := ⟨t.elementName, t.dimensions⟩

/-- Simple name, with a pair of brackets for each dimension. -/
def name (t : Ty) : String := t.key.render

def ns (t : Ty) : String := t.elementName.ns

/-- The same type to the language. -/
def same (t u : Ty) : Bool := t.key = u.key

/-- Word for the kind of type. -/
def tag : Ty → String
  | primitive _ => "primitive"
  | boxed _ => "boxed"
  | bigInteger | bigDecimal => "big number"
  | wrapper _ => "meta"
  | string => "string"
  | object => "object"
  | number | record _ _ _ => "class"
  | list | collection _ _ _ => "collection"
  | null => "null"
  | void => "void"
  | error => "error"
  | interface _ _ _ => "interface"
  | array _ => "array"

/-- Kind and name of the type on one line. -/
def describe (t : Ty) : String := "OpenType(" ++ t.tag ++ ":" ++ t.name ++ ")"

def primitive? : Ty → Option Primitive
  | primitive kind => some kind
  | _ => none

def boxed? : Ty → Option Primitive
  | boxed kind => some kind
  | _ => none

def wrapper? : Ty → Option MetaKind
  | wrapper kind => some kind
  | _ => none

/-- Numeric kind of primitive, boxed and unbounded types. -/
def numericKind? : Ty → Option NumericKind
  | primitive kind => kind.numeric?
  | boxed kind => kind.numeric?
  | bigInteger => some .bigInteger
  | bigDecimal => some .bigDecimal
  | _ => none

def isPrimitive (t : Ty) : Bool := t.primitive?.isSome

def isNull : Ty → Bool
  | null => true
  | _ => false

def isVoid : Ty → Bool
  | void => true
  | _ => false

def isError : Ty → Bool
  | error => true
  | _ => false

def isObject : Ty → Bool
  | object => true
  | _ => false

def isInterface : Ty → Bool
  | interface _ _ _ => true
  | _ => false

def isArray : Ty → Bool
  | array _ => true
  | _ => false

/-- Whether values of the type may be null. -/
def isReference : Ty → Bool
  | primitive _ | void | error => false
  | _ => true

def isBooleanLike : Ty → Bool
  | primitive .boolean | boxed .boolean => true
  | _ => false

/-- Element type of an array or collection. -/
def component? : Ty → Option Ty
  | array component => some component
  | collection _ _ element => some element
  | list => some object
  | _ => none

def isAggregate (t : Ty) : Bool := t.component?.isSome

/-- Value of a variable of the type that was never written. -/
def defaultValue : Ty → Value
  | primitive .boolean => .bool false
  | primitive .byte => .byte 0
  | primitive .short => .short 0
  | primitive .char => .char '\x00'
  | primitive .int => .int 0
  | primitive .long => .long 0
  | primitive .float => .float .zero
  | primitive .double => .double .zero
  | _ => .null

/-- Class of the objects that hold a value of a primitive type; other types stay. -/
def box : Ty → Ty
  | primitive kind => boxed kind
  | t => t

/-- The type of plain numbers of a kind. -/
def ofNumericKind : NumericKind → Ty
  | .byte => primitive .byte
  | .short => primitive .short
  | .char => primitive .char
  | .int => primitive .int
  | .long => primitive .long
  | .float => primitive .float
  | .double => primitive .double
  | .bigInteger => bigInteger
  | .bigDecimal => bigDecimal

/-- Built-in types that can be named in source text. -/
def named : List Ty :=
  [object, string, number, bigInteger, bigDecimal, list, void] ++
    Primitive.all.map primitive ++ Primitive.all.map boxed ++ MetaKind.all.map wrapper

/-- Built-in type with the given simple or qualified name. -/
def builtin? (name : String) : Option Ty :=
  named.find? fun t => t.name == name || t.key.renderQualified == name

end Ty

end RuleExpr

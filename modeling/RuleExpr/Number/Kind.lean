/-!
# Primitive Kinds and the Numeric Lattice

The rule language has eight primitive kinds, seven of which are numeric, and two kinds of
unbounded numbers above them.  `NumericKind.rank` places the nine numeric kinds on a line and
`NumericKind.widensTo` says which conversions lose nothing but rounding.  The two are
independent: `short` and `char` share a rank and neither widens into the other.
-/

namespace RuleExpr

inductive Primitive where
  | boolean
  | byte
  | short
  | char
  | int
  | long
  | float
  | double
  deriving DecidableEq, Repr

inductive NumericKind where
  | byte
  | short
  | char
  | int
  | long
  | float
  | double
  | bigInteger
  | bigDecimal
  deriving DecidableEq, Repr

namespace Primitive

def all : List Primitive :=
  [boolean, byte, short, char, int, long, float, double]

def name : Primitive → String
  | boolean => "boolean"
  | byte => "byte"
  | short => "short"
  | char => "char"
  | int => "int"
  | long => "long"
  | float => "float"
  | double => "double"

/-- Simple name of the class whose instances hold one value of the kind. -/
def boxedName : Primitive → String
  | boolean => "Boolean"
  | byte => "Byte"
  | short => "Short"
  | char => "Character"
  | int => "Integer"
  | long => "Long"
  | float => "Float"
  | double => "Double"

/-- Capitalised name, as kinds are spelled in messages. -/
def label : Primitive → String
  | boolean => "Boolean"
  | byte => "Byte"
  | short => "Short"
  | char => "Char"
  | int => "Int"
  | long => "Long"
  | float => "Float"
  | double => "Double"

def isNumeric (kind : Primitive) : Bool :=
  kind != boolean

def isIntegral : Primitive → Bool
  | byte | short | char | int | long => true
  | boolean | float | double => false

/-- Targets of a widening conversion, narrowest first. -/
def wideningTargets : Primitive → List Primitive
  | boolean => []
  | byte => [short, int, long, float, double]
  | short => [int, long, float, double]
  | char => [int, long, float, double]
  | int => [long, float, double]
  | long => [float, double]
  | float => [double]
  | double => []

def widensTo (source target : Primitive) : Bool :=
  source.wideningTargets.contains target

def numeric? : Primitive → Option NumericKind
  | boolean => none
  | byte => some .byte
  | short => some .short
  | char => some .char
  | int => some .int
  | long => some .long
  | float => some .float
  | double => some .double

def ofName? (name : String) : Option Primitive :=
  all.find? (·.name == name)

/-- The part of a dotted name after its last dot. -/
def simpleName (identifier : String) : String :=
  String.ofList (identifier.toList.reverse.takeWhile (· ≠ '.')).reverse

/-- Kind held by a boxed class, from its simple or dotted name. -/
def ofBoxedName? (identifier : String) : Option Primitive :=
  all.find? (·.boxedName == simpleName identifier)

end Primitive

namespace NumericKind

def all : List NumericKind :=
  [byte, short, char, int, long, float, double, bigInteger, bigDecimal]

def label : NumericKind → String
  | byte => "Byte"
  | short => "Short"
  | char => "Char"
  | int => "Int"
  | long => "Long"
  | float => "Float"
  | double => "Double"
  | bigInteger => "BigInteger"
  | bigDecimal => "BigDecimal"

/-- Height in the lattice. -/
def rank : NumericKind → Nat
  | byte => 0
  | short | char => 1
  | int => 2
  | long => 3
  | float => 4
  | double => 5
  | bigInteger => 6
  | bigDecimal => 7

/-- Place in the listing order of the kinds, which separates `short` from `char`. -/
def position : NumericKind → Nat
  | byte => 0
  | short => 1
  | char => 2
  | int => 3
  | long => 4
  | float => 5
  | double => 6
  | bigInteger => 7
  | bigDecimal => 8

def isIntegral : NumericKind → Bool
  | byte | short | char | int | long | bigInteger => true
  | float | double | bigDecimal => false

def isFloating : NumericKind → Bool
  | float | double => true
  | _ => false

def primitive? : NumericKind → Option Primitive
  | byte => some .byte
  | short => some .short
  | char => some .char
  | int => some .int
  | long => some .long
  | float => some .float
  | double => some .double
  | bigInteger | bigDecimal => none

/-- Whether every value of `source` is a value of the different kind `target`, up to rounding. -/
def widensTo (source target : NumericKind) : Bool :=
  source != target &&
    match source.primitive?, target.primitive? with
    | some narrow, some wide => narrow.widensTo wide
    | some narrow, none => target != bigInteger || narrow.isIntegral
    | none, some _ => false
    | none, none => source == bigInteger && target == bigDecimal

/-- Ranks climbed from `source` to `target`; zero when `target` is not above. -/
def stepsTo (source target : NumericKind) : Nat :=
  target.rank - source.rank

/-- Simple name of the wrapper class built on the kind. -/
def metaName : NumericKind → String
  | byte => "ByteValue"
  | short => "ShortValue"
  | char => "CharValue"
  | int => "IntValue"
  | long => "LongValue"
  | float => "FloatValue"
  | double => "DoubleValue"
  | bigInteger => "BigIntegerValue"
  | bigDecimal => "BigDecimalValue"

/-- Kind in which a binary operation on the two kinds computes: at least `int`, and decimal
when an unbounded integer meets a floating kind. -/
def promote (left right : NumericKind) : NumericKind :=
  match if right.rank ≤ left.rank then left else right with
  | byte | short | char => int
  | bigInteger => if left.isFloating || right.isFloating then bigDecimal else bigInteger
  | kind => kind

end NumericKind

/-- Numeric kinds for which a meta wrapper class exists: all but `char`. -/
inductive MetaKind where
  | byte
  | short
  | int
  | long
  | float
  | double
  | bigInteger
  | bigDecimal
  deriving DecidableEq, Repr

namespace MetaKind

def all : List MetaKind :=
  [byte, short, int, long, float, double, bigInteger, bigDecimal]

def numeric : MetaKind → NumericKind
  | byte => .byte
  | short => .short
  | int => .int
  | long => .long
  | float => .float
  | double => .double
  | bigInteger => .bigInteger
  | bigDecimal => .bigDecimal

end MetaKind

def NumericKind.meta? (kind : NumericKind) : Option MetaKind :=
  MetaKind.all.find? (·.numeric == kind)

end RuleExpr

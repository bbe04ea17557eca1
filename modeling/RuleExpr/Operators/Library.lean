import RuleExpr.Cast.Registry
import RuleExpr.Operators.Compare
import RuleExpr.Value.Arithmetic

/-!
# The Standard Library

The overloads behind the operators and the conversions between plain numbers and their meta
wrappers.  Operators are found by overload resolution like any other method, so the kinds that
have overloads here are those in which the language computes.
-/

namespace RuleExpr.Library

/-- A static method of the library. -/
def operator (name : String) (params : List Ty) (returns : Ty)
    (run : List Value → Except EvalError Value) : Method :=
  .native ⟨0, name, params, returns, "Operators", .static, none⟩ fun _ arguments => run arguments

def unary (name : String) (param returns : Ty) (run : Value → Except EvalError Value) : Method :=
  operator name [param] returns fun arguments => run (arguments.getD 0 .null)

def binary (name : String) (left right returns : Ty)
    (run : Value → Value → Except EvalError Value) : Method :=
  operator name [left, right] returns fun arguments =>
    run (arguments.getD 0 .null) (arguments.getD 1 .null)

/-- Kinds with arithmetic and comparisons of their own; narrower ones are promoted. -/
def operatorKinds : List NumericKind := [.int, .long, .float, .double, .bigInteger, .bigDecimal]

def arithmeticOf (kind : NumericKind) : List Method :=
  let t := Ty.ofNumericKind kind
  (ArithmeticOp.all.map fun op => binary op.methodName t t t (op.apply kind)) ++
    [unary "negative" t t (Value.negate kind)]

/-- Wrapped numbers are computed in the promoted kind and brought back. -/
def wrapperArithmeticOf (kind : MetaKind) : List Method :=
  let t := Ty.wrapper kind
  let working := kind.numeric.promote kind.numeric
  ArithmeticOp.all.map fun op => binary op.methodName t t t fun x y => do
    (← op.apply working x y).convert kind.numeric

/-- Orderings of operands that may be null have an answer that may be null. -/
def nullableAnswer (op : Comparison) : Ty :=
  if op.isEquality then .boolean else .boxed .boolean

def comparisonsOf (kind : NumericKind) : List Method :=
  let t := Ty.ofNumericKind kind
  Comparison.all.flatMap fun op => [Comparison.Mode.loose, .strict].map fun mode =>
    if t.isReference then
      binary (op.nameIn mode) t t (nullableAnswer op) (op.numbersOrNull mode kind)
    else
      binary (op.nameIn mode) t t .boolean fun x y => .bool <$> op.numbers mode kind x y

def boxedComparisonsOf (primitive : Primitive) : List Method :=
  match primitive.numeric? with
  | none => []
  | some kind =>
    let t := Ty.boxed primitive
    Comparison.all.map fun op =>
      binary op.methodName t t (nullableAnswer op) (op.numbersOrNull .loose (kind.promote kind))

def otherComparisons (op : Comparison) : List Method :=
  [binary op.methodName .boolean .boolean .boolean op.bools,
    binary op.methodName (.boxed .boolean) (.boxed .boolean) (nullableAnswer op) op.boolsOrNull,
    binary op.methodName .string .string (nullableAnswer op) op.strings]

def objectComparisons : List Method :=
  [binary "eq" .object .object .boolean fun x y => .ok (.bool (x.equal y)),
    binary "ne" .object .object .boolean fun x y => .ok (.bool (!x.equal y))]

def concatenate (x y : Value) : Except EvalError Value := .ok (.string (x.render ++ y.render))

def logicAndText : List Method :=
  [unary "not" .boolean .boolean fun x => do return .bool (!(← Comparison.expectBool x)),
    binary "add" .string .string .string concatenate,
    binary "add" .string .object .string concatenate,
    binary "add" .object .string .string concatenate]

/-- All operator overloads in the order of their declaration. -/
def operators : List Method :=
  operatorKinds.flatMap arithmeticOf ++ MetaKind.all.flatMap wrapperArithmeticOf ++
    operatorKinds.flatMap comparisonsOf ++ Primitive.all.flatMap boxedComparisonsOf ++
    Comparison.all.flatMap otherComparisons ++ objectComparisons ++ logicAndText

def operatorsNamed (name : String) : List Method := operators.filter (·.name = name)

/-- Names of all operators in alphabetical order. -/
def operatorNames : List String :=
  (operators.map (·.name)).eraseDups.mergeSort (fun a b => a ≤ b)

def conversion (name : String) (source target : Ty) (kind : NumericKind) (distance : Nat) :
    Option Conversion :=
  CastLibrary.conversion? (unary name source target (·.convert kind)) distance

/-- Into the wrapper, if nothing is lost. -/
def wrapping (wrapper : MetaKind) (kind : NumericKind) : Option Conversion :=
  if kind = wrapper.numeric ∨ kind.widensTo wrapper.numeric then
    conversion CastLibrary.implicitName (.ofNumericKind kind) (.wrapper wrapper) wrapper.numeric
      (Distance.wrap + kind.stepsTo wrapper.numeric * Distance.wideningStep)
  else
    none

/-- Out of the wrapper: implicitly if nothing is lost, else where it is written. -/
def unwrapping (wrapper : MetaKind) (kind : NumericKind) : Option Conversion :=
  if kind = wrapper.numeric ∨ wrapper.numeric.widensTo kind then
    conversion CastLibrary.implicitName (.wrapper wrapper) (.ofNumericKind kind) kind
      (Distance.unwrap + wrapper.numeric.stepsTo kind * Distance.wideningStep)
  else
    conversion CastLibrary.explicitName (.wrapper wrapper) (.ofNumericKind kind) kind
      Distance.unwrap

def rewrapping (wrapper wider : MetaKind) : Option Conversion :=
  if wrapper.numeric.widensTo wider.numeric then
    conversion CastLibrary.implicitName (.wrapper wrapper) (.wrapper wider) wider.numeric
      (Distance.wrap + wrapper.numeric.stepsTo wider.numeric * Distance.wideningStep)
  else
    none

def conversionsOf (wrapper : MetaKind) : List Conversion :=
  (NumericKind.all.flatMap fun kind =>
    (wrapping wrapper kind).toList ++ (unwrapping wrapper kind).toList) ++
  MetaKind.all.flatMap fun wider => (rewrapping wrapper wider).toList

/-- Conversions between plain numbers and meta wrappers. -/
def casts : CastLibrary := ⟨"meta", MetaKind.all.flatMap conversionsOf⟩

/-- Structural casts first, then the conversions of the library. -/
def registry : Registry := ⟨[.structural, casts.provider]⟩

end RuleExpr.Library

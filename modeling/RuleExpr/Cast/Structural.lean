import RuleExpr.Cast.Distance
import RuleExpr.Ty.Hierarchy

/-!
# Structural Casts

The conversions that follow from the types alone: identity, null, boxing, the numeric lattice,
inheritance, and arrays whose components convert along inheritance.  `structuralCast` decides
between two given types; `structuralTargets` lists, on its own, where a type converts implicitly,
leaving out the root of all references.
-/

namespace RuleExpr

def boxingCast (source target : Ty) : Option Cast :=
  match source, target with
  | .primitive p, .boxed q =>
    if p = q then some (.ofImplicit source target .boxing Distance.boxing) else none
  | .boxed p, .primitive q =>
    if p = q then some (.ofImplicit source target .unboxing Distance.unboxing) else none
  | _, _ => none

/-- Cost of widening between numeric types, of the kinds `narrow` and `wide`. -/
def wideningDistance (source target : Ty) (narrow wide : NumericKind) : Nat :=
  narrow.stepsTo wide * Distance.wideningStep +
    (if source.boxed?.isSome then Distance.unboxing else 0) +
    (if target.boxed?.isSome then Distance.boxing else 0) +
    (if wide.primitive?.isNone && narrow.primitive?.isSome then Distance.toBigNumber else 0)

/-- Ranks between two numeric kinds. -/
def rankGap (a b : NumericKind) : Nat := (a.rank - b.rank) + (b.rank - a.rank)

def numericCast (source target : Ty) : Option Cast := do
  let given ← source.numericKind?
  let wanted ← target.numericKind?
  if given = wanted then
    boxingCast source target
  else if given.widensTo wanted then
    some (.ofImplicit source target (.widening wanted)
      (wideningDistance source target given wanted))
  else
    some (.ofExplicit source target (.narrowing wanted) (rankGap given wanted))

def booleanCast (source target : Ty) : Option Cast :=
  if source.isBooleanLike && target.isBooleanLike then boxingCast source target else none

/-- Up to an ancestor, or down from one. -/
def referenceCast (source target : Ty) : Option Cast :=
  match source.ancestorDistance target with
  | some levels =>
    some (.ofImplicit source target .upcast (levels * Distance.upcastStep))
  | none =>
    (target.ancestorDistance source).map fun levels =>
      .ofExplicit source target .downcast (levels * Distance.upcastStep)

def nullCast (target : Ty) : Option Cast :=
  if target.isReference then
    some (.ofImplicit .null target .nullToReference
      (if target.isObject then Distance.toObject else Distance.nullToReference))
  else
    none

def objectCast (source target : Ty) : Cast :=
  if source.isPrimitive then
    .ofImplicit source target .boxing (Distance.boxing + Distance.toObject)
  else
    .ofImplicit source target .upcast Distance.toObject

/-- A primitive value as an instance of an ancestor of its box. -/
def boxedAncestorCast (kind : Primitive) (target : Ty) : Option Cast :=
  ((Ty.boxed kind).ancestorDistance target).map fun levels =>
    .ofImplicit (.primitive kind) target .boxing (Distance.boxing + levels * Distance.upcastStep)

/-- A number taken, unchecked, out of the root or of an ancestor of its box. -/
def uncheckedUnboxing (source : Ty) (kind : Primitive) (number : NumericKind) : Option Cast :=
  if source.isObject || ((Ty.boxed kind).ancestorDistance source).isSome then
    some (.ofExplicit source (.primitive kind) (.narrowing number) Distance.unboxing)
  else
    none

/-- Cast between two types of different keys that are not both arrays. -/
def scalarCast (source target : Ty) : Option Cast :=
  if source.isError || target.isError || source.isVoid || target.isVoid then none
  else if source.isNull then nullCast target
  else if target.isObject then some (objectCast source target)
  else
    match booleanCast source target <|> numericCast source target with
    | some cast => some cast
    | none =>
      match source.primitive?, target.primitive? with
      | some kind, _ => boxedAncestorCast kind target
      | none, some kind =>
        match kind.numeric? with
        | some number => uncheckedUnboxing source kind number
        | none =>
          if source.isObject && target.isReference then
            some (.ofExplicit source target .downcast 0)
          else referenceCast source target
      | none, none =>
        if source.isObject && target.isReference then
          some (.ofExplicit source target .downcast 0)
        else referenceCast source target

/-- An array converts when its components convert along inheritance. -/
def liftToArrays (source target : Ty) (inner : Cast) : Option Cast :=
  match inner.kind with
  | .upcast | .nullToReference => some (.ofImplicit source target .upcast inner.distance)
  | .downcast =>
    some (.ofExplicit source target .downcast (inner.distance - Distance.explicit))
  | _ => none

def structuralCast (source target : Ty) : Option Cast :=
  if source.key = target.key then some (.identity source)
  else
    match source, target with
    | .array a, .array b =>
      if a.isPrimitive || b.isPrimitive then none
      else (structuralCast a b).bind (liftToArrays (.array a) (.array b))
    | _, _ => scalarCast source target

/-- Wider numeric types of a kind, with the boxes of the primitive ones. -/
def numericTargets (kind : NumericKind) : List Ty :=
  (match kind.primitive? with
    | some primitive =>
      .boxed primitive ::
        primitive.wideningTargets.flatMap fun wider => [.primitive wider, .boxed wider]
    | none => []) ++
  (if kind.widensTo .bigInteger then [.bigInteger] else []) ++
  (if kind.widensTo .bigDecimal then [.bigDecimal] else [])

/-- Targets of a type that is not an array: numeric ones first, then the ancestors of the type or
of its box. -/
def scalarTargets (source : Ty) : List Ty :=
  let unboxed := match source with
    | .boxed primitive => [Ty.primitive primitive]
    | _ => []
  let numeric := match source.numericKind? with
    | some kind => unboxed ++ (numericTargets kind).filter (·.key ≠ source.key)
    | none => []
  numeric ++ source.box.ancestors.map (·.1)

/-- Types to which `source` converts implicitly by its structure. -/
def structuralTargets : Ty → List Ty
  | .null | .void | .error | .object => []
  | .primitive .boolean => [.boxed .boolean]
  | .boxed .boolean => [.boolean]
  | .array component =>
    if component.isPrimitive then [] else (structuralTargets component).map .array
  | source => scalarTargets source

end RuleExpr

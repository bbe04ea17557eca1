import RuleExpr.Number.Decimal.Arithmetic
import RuleExpr.Number.Binary

/-!
# Comparisons

The loose comparisons forgive rounding: two floating values one unit in the last place apart count
as equal, and one is greater only when it exceeds the other by more than that.  The strict ones
compare the values as they are.  A type supplies loose equality and loose "greater"; "less" and
"less or equal" are always these with the operands exchanged.

Operands that may be null make an ordering unknown, which is `none`; equality is always known.
-/

namespace RuleExpr

open RuleExpr.Number

/-- Types with an exact order, which may be partial, and a loose one. -/
class Comparable (α : Type) where
  compare? : α → α → Option Ordering
  looseEq : α → α → Bool
  looseGt : α → α → Bool
  looseGe : α → α → Bool := fun x y => looseGt x y || looseEq x y

namespace Comparable

/-- A total order that forgives nothing. -/
@[reducible]
def ofOrder (α : Type) [Ord α] [BEq α] : Comparable α where
  compare? x y := some (compare x y)
  looseEq x y := x == y
  looseGt x y := compare x y == .gt

instance : Comparable Int8 := ofOrder Int8

instance : Comparable Int16 := ofOrder Int16

instance : Comparable Int32 := ofOrder Int32

instance : Comparable Int64 := ofOrder Int64

instance : Comparable Char := ofOrder Char

instance : Comparable Int := ofOrder Int

/-- Texts are ordered by their code points. -/
instance : Comparable String := ofOrder String

instance : Comparable Bool where
  compare? x y := some (compare x y)
  looseEq x y := x == y
  looseGt x y := x && !y
  looseGe x y := x || !y

/-- The larger of the units of both operands is forgiven, so that equality is symmetric where the
unit changes. -/
instance {f : Format} : Comparable (Binary f) where
  compare? := Binary.compare?
  looseEq x y :=
    x == y || x.eq y ||
      (x.isFinite && y.isFinite &&
        (x.sub y).abs.le (if x.ulp.gt y.ulp then x.ulp else y.ulp))
  looseGt x y := x.gt y && (x.isInfinite || (x.sub y).gt x.ulp)

/-- The unit forgiven is the one of the first operand.  A difference out of bounds is larger than
any unit. -/
instance : Comparable Decimal where
  compare? x y := some (x.compare y)
  looseEq x y := (x.sub y).any fun difference => difference.abs.le x.ulp
  looseGt x y := x.gt y && (x.sub y).all fun difference => difference.gt x.ulp

end Comparable

inductive Comparison where
  | eq
  | ne
  | gt
  | ge
  | lt
  | le
  deriving DecidableEq, Repr

namespace Comparison

def all : List Comparison := [eq, ne, gt, ge, lt, le]

def methodName : Comparison → String
  | eq => "eq"
  | ne => "ne"
  | gt => "gt"
  | ge => "ge"
  | lt => "lt"
  | le => "le"

def strictMethodName : Comparison → String
  | eq => "strict_eq"
  | ne => "strict_ne"
  | gt => "strict_gt"
  | ge => "strict_ge"
  | lt => "strict_lt"
  | le => "strict_le"

/-- Whether the comparison is known for null operands. -/
def isEquality : Comparison → Bool
  | eq | ne => true
  | _ => false

variable {α : Type} [Comparable α]

def loose : Comparison → α → α → Bool
  | eq, x, y => Comparable.looseEq x y
  | ne, x, y => !Comparable.looseEq x y
  | gt, x, y => Comparable.looseGt x y
  | ge, x, y => Comparable.looseGe x y
  | lt, x, y => Comparable.looseGt y x
  | le, x, y => Comparable.looseGe y x

/-- What the comparison says of two operands in the given order. -/
def holds : Comparison → Ordering → Bool
  | eq, order => order == .eq
  | ne, order => order != .eq
  | gt, order => order == .gt
  | ge, order => order != .lt
  | lt, order => order == .lt
  | le, order => order != .gt

/-- Operands without an order differ, and nothing else can be said of them. -/
def strict (op : Comparison) (x y : α) : Bool :=
  match Comparable.compare? x y with
  | some order => op.holds order
  | none => op == ne

/-- Two nulls are equal. -/
def equalOrNull : Option α → Option α → Bool
  | none, none => true
  | some x, some y => Comparable.looseEq x y
  | _, _ => false

def greaterOrNull : Option α → Option α → Option Bool
  | some x, some y => some (Comparable.looseGt x y)
  | _, _ => none

/-- Two nulls are equal, hence also "greater or equal". -/
def greaterEqualOrNull : Option α → Option α → Option Bool
  | none, none => some true
  | some x, some y => some (Comparable.looseGe x y)
  | _, _ => none

/-- Loose comparison of operands that may be null. -/
def nullable : Comparison → Option α → Option α → Option Bool
  | eq, x, y => some (equalOrNull x y)
  | ne, x, y => some (!equalOrNull x y)
  | gt, x, y => greaterOrNull x y
  | ge, x, y => greaterEqualOrNull x y
  | lt, x, y => greaterOrNull y x
  | le, x, y => greaterEqualOrNull y x

/-- Comparison of operands that may be null in which orderings follow the exact order; they are
unknown when an operand is null or the operands have no order. -/
def generic (op : Comparison) (x y : Option α) : Option Bool :=
  if op.isEquality then op.nullable x y
  else do
    let order ← Comparable.compare? (← x) (← y)
    some (op.holds order)

end Comparison

end RuleExpr

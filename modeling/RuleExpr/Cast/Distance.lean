import RuleExpr.Bound.Basic

/-!
# Cast Distances

The cost of every step of a conversion.  Costs of composed conversions add up, and a conversion that
has to be written costs its price on top.  A distance is kept in 32 bits: a sum that does not fit
ends the lookup with an error, except the total over the arguments of a call, which stays at the
largest one.

The distances of conversions that follow from the types alone are exact.  They grow with the levels
of a hierarchy only, and two thousand million of these would have to be held in memory before one
of them left the width.
-/

namespace RuleExpr

-- The powers of the core library, also where another instance is known.
attribute [local instance (high)] instPowNat

inductive CastError where
  | misconfigured (provider : String) (source target actualSource actualTarget : TypeKey)
  /-- A sum of distances that does not fit. -/
  | overflow
  deriving DecidableEq, Repr

def CastError.message : CastError → String
  | misconfigured provider source target actualSource actualTarget =>
    "cast provider '" ++ provider ++ "' answered " ++ source.render ++ " -> " ++ target.render ++
      " with a cast for " ++ actualSource.render ++ " -> " ++ actualTarget.render
  | overflow => "attempt to add with overflow"

namespace Distance

def nullToReference : Nat := 1

/-- For each rank of the numeric lattice. -/
def wideningStep : Nat := 1

/-- For each level of inheritance. -/
def upcastStep : Nat := 2

def boxing : Nat := 10

def unboxing : Nat := 12

def toBigNumber : Nat := 20

def wrap : Nat := 30

def unwrap : Nat := 40

def toObject : Nat := 100

/-- Added to every conversion that has to be written. -/
def explicit : Nat := 200

def limit : Nat := 2 ^ (32 : Nat)

/-- Sum that has to fit. -/
def add (a b : Nat) : Except CastError Nat :=
  if a + b < limit then .ok (a + b) else .error .overflow

/-- Sum that stays at the largest distance instead of passing it. -/
def addSaturating (a b : Nat) : Nat := min (a + b) (limit - 1)

end Distance

namespace Cast

def identity (t : Ty) : Cast := ⟨t, t, .identity, true, 0⟩

/-- A conversion that binding may insert by itself. -/
def ofImplicit (source target : Ty) (kind : CastKind) (distance : Nat) : Cast :=
  ⟨source, target, kind, true, distance⟩

/-- A conversion that has to be written. -/
def ofExplicit (source target : Ty) (kind : CastKind) (extra : Nat) : Cast :=
  ⟨source, target, kind, false, Distance.explicit + extra⟩

end Cast

end RuleExpr

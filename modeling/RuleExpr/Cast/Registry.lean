import RuleExpr.Cast.Structural

/-!
# Cast Registries

A registry asks its providers in order, and the first answer counts.  A provider that answers with
other end points than it was asked for is an error, and so is one whose distance does not fit.
`commonType` finds the type that two types reach at the least total distance.
-/

namespace RuleExpr

/-- A source of casts. -/
structure Provider where
  name : String
  cast : Ty → Ty → Except CastError (Option Cast)
  /-- Types to which the provider converts a type implicitly. -/
  targets : Ty → List Ty

def Provider.structural : Provider :=
  ⟨"structural", fun source target => .ok (structuralCast source target), structuralTargets⟩

structure Conversion where
  method : Method
  source : Ty
  distance : Nat
  implicit : Bool

structure CastLibrary where
  name : String
  entries : List Conversion

namespace CastLibrary

/-- Name of the methods that convert implicitly. -/
def implicitName : String := "autocast"

/-- Name of the methods that convert only where it is written. -/
def explicitName : String := "cast"

def empty (name : String) : CastLibrary := ⟨name, []⟩

/-- The conversion that a method stands for; it needs one of the two names and one parameter. -/
def conversion? (method : Method) (distance : Nat) : Option Conversion :=
  match method.params with
  | [source] =>
    if method.name = implicitName then some ⟨method, source, distance, true⟩
    else if method.name = explicitName then some ⟨method, source, distance, false⟩
    else none
  | _ => none

/-- Adds a method if it is a conversion; the flag tells whether it is. -/
def register (library : CastLibrary) (method : Method) (distance : Nat) : Bool × CastLibrary :=
  match conversion? method distance with
  | some entry => (true, { library with entries := library.entries ++ [entry] })
  | none => (false, library)

def matching (library : CastLibrary) (source target : Ty) (implicit : Bool) : Option Conversion :=
  library.entries.find? fun entry =>
    entry.implicit == implicit && entry.source.key = source.key &&
      entry.method.returns.key = target.key

/-- Implicit conversions come before written ones, which cost their price on top. -/
def cast (library : CastLibrary) (source target : Ty) : Except CastError (Option Cast) :=
  match library.matching source target true with
  | some entry => .ok (some (.ofImplicit source target (.method entry.method) entry.distance))
  | none =>
    match library.matching source target false with
    | some entry => do
      let distance ← Distance.add Distance.explicit entry.distance
      return some ⟨source, target, .method entry.method, false, distance⟩
    | none => .ok none

def targets (library : CastLibrary) (source : Ty) : List Ty :=
  (library.entries.filter fun entry => entry.implicit && entry.source.key = source.key).map
    fun entry => entry.method.returns

def provider (library : CastLibrary) : Provider := ⟨library.name, library.cast, library.targets⟩

end CastLibrary

structure Registry where
  providers : List Provider

namespace Registry

/-- First answer of the providers. -/
def firstCast (source target : Ty) : List Provider → Except CastError (Option Cast)
  | [] => .ok none
  | provider :: rest => do
    match ← provider.cast source target with
    | none => firstCast source target rest
    | some cast =>
      if cast.source.key = source.key ∧ cast.target.key = target.key then return some cast
      else
        throw (.misconfigured provider.name source.key target.key cast.source.key
          cast.target.key)

/-- Cast between two types, implicit or not. -/
def cast (r : Registry) (source target : Ty) : Except CastError (Option Cast) :=
  firstCast source target r.providers

/-- Cast that may be inserted by itself. -/
def implicitCast (r : Registry) (source target : Ty) : Except CastError (Option Cast) :=
  if source.key = target.key then .ok (some (.identity source))
  else return (← r.cast source target).filter (·.implicit)

/-- The two types and all targets that the providers name for them, each key once. -/
def candidates (r : Registry) (a b : Ty) : List Ty :=
  let named := a :: b :: r.providers.flatMap fun p => p.targets a ++ p.targets b
  Assoc.values (Assoc.merge [] (named.map fun t => (t.key, t)))

/-- Sum of the distances from `a` and from `b`, and the larger of the two. -/
structure Score where
  total : Nat
  larger : Nat
  deriving DecidableEq, Repr

def Score.better (x y : Score) : Bool :=
  x.total < y.total || (x.total == y.total && x.larger < y.larger)

/-- Score of a candidate that both types reach. -/
def score? (r : Registry) (a b candidate : Ty) : Except CastError (Option Score) := do
  match ← r.implicitCast a candidate, ← r.implicitCast b candidate with
  | some fromA, some fromB =>
    let total ← Distance.add fromA.distance fromB.distance
    return some ⟨total, max fromA.distance fromB.distance⟩
  | _, _ => return none

/-- The better of the best so far and a new candidate; the earlier one if neither is. -/
def keepBest (best : Option (Score × Ty)) (score : Score) (candidate : Ty) :
    Option (Score × Ty) :=
  match best with
  | some (current, _) => if score.better current then some (score, candidate) else best
  | none => some (score, candidate)

def bestOf (r : Registry) (a b : Ty) :
    List Ty → Option (Score × Ty) → Except CastError (Option (Score × Ty))
  | [], best => .ok best
  | candidate :: rest, best => do
    match ← r.score? a b candidate with
    | some score => bestOf r a b rest (keepBest best score candidate)
    | none => bestOf r a b rest best

/-- Type that both types reach implicitly at the least total distance. -/
def commonType (r : Registry) (a b : Ty) : Except CastError (Option Ty) :=
  if a.key = b.key then .ok (some a)
  else return (← r.bestOf a b (r.candidates a b) none).map (·.2)

end Registry

end RuleExpr

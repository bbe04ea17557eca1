import RuleExpr.Cast.Registry

/-!
# Overload Resolution

Among the methods of a name that take the given number of arguments, those are applicable to whose
parameters every argument converts implicitly.  The applicable method with the least total distance
is selected; several at the least distance are ambiguous, whatever their order.
-/

namespace RuleExpr

/-- An applicable method with the conversions of its arguments. -/
structure Selection where
  method : Method
  casts : List Cast
  distance : Nat

inductive Resolution where
  | found (selection : Selection)
  | notFound
  | ambiguous (methods : List Method)

namespace Overload

/-- Conversions of the arguments to the parameters, pairwise. -/
def convertArguments (r : Registry) :
    List Ty → List Ty → Except CastError (Option (List Cast))
  | argument :: arguments, param :: params => do
    match ← r.implicitCast argument param with
    | none => return none
    | some cast => return (← convertArguments r arguments params).map (cast :: ·)
  | _, _ => return some []

def totalDistance (casts : List Cast) : Nat :=
  casts.foldl (fun total cast => Distance.addSaturating total cast.distance) 0

/-- The selection of `method`, if it is called `name` and applicable. -/
def select? (r : Registry) (name : String) (arguments : List Ty) (method : Method) :
    Except CastError (Option Selection) := do
  if method.name = name ∧ method.arity = arguments.length then
    return (← convertArguments r arguments method.params).map fun casts =>
      ⟨method, casts, totalDistance casts⟩
  else
    return none

/-- The selections of least distance among the ones so far and a new one. -/
def keepNearest (best : List Selection) (selection : Selection) : List Selection :=
  match best with
  | [] => [selection]
  | current :: _ =>
    if current.distance < selection.distance then best
    else if selection.distance = current.distance then best ++ [selection]
    else [selection]

def nearest (r : Registry) (name : String) (arguments : List Ty) :
    List Method → List Selection → Except CastError (List Selection)
  | [], best => .ok best
  | method :: rest, best => do
    match ← select? r name arguments method with
    | some selection => nearest r name arguments rest (keepNearest best selection)
    | none => nearest r name arguments rest best

def resolve (r : Registry) (candidates : List Method) (name : String) (arguments : List Ty) :
    Except CastError Resolution := do
  match ← nearest r name arguments candidates [] with
  | [] => return .notFound
  | [selection] => return .found selection
  | several => return .ambiguous (several.map (·.method))

/-- The attempted call, such as `f(int, String)`. -/
def describeCall (name : String) (arguments : List Ty) : String :=
  renderCall name (arguments.map Ty.key)

end Overload

end RuleExpr

import RuleExpr.Bound.Basic
import RuleExpr.Ty.Hierarchy

/-!
# Members of Types

The fields, methods and constructors that types declare, kept in a table beside the types.  Members
are defined at most once.  Lookup by name goes through a type and then, depth first, through its
super-types.
-/

namespace RuleExpr

structure Members where
  fields : List (String × Field)
  methods : List Method
  constructors : List Method

namespace Members

def empty : Members := ⟨[], [], []⟩

/-- A later field of the same name replaces the earlier one. -/
def ofFields (fields : List Field) : Members :=
  { empty with fields := Assoc.ofList (fields.map fun field => (field.name, field)) }

end Members

/-- What members are defined for. -/
inductive TypeId where
  | builtin (key : TypeKey)
  | declared (number : Nat)
  deriving DecidableEq, Repr

/-- Array types have no members of their own. -/
def Ty.id? : Ty → Option TypeId
  | .record id _ _ => some (.declared id)
  | .interface id _ _ => some (.declared id)
  | .collection id _ _ => some (.declared id)
  | .array _ => none
  | t => some (.builtin t.key)

inductive TypeError where
  | membersAlreadyDefined (typeName : String)
  deriving DecidableEq, Repr

def TypeError.message : TypeError → String
  | membersAlreadyDefined typeName =>
    "members of type '" ++ typeName ++ "' are already defined"

structure Declarations where
  table : List (TypeId × Members)

namespace Declarations

def empty : Declarations := ⟨[]⟩

/-- Members of a type; none for a type whose members are not defined. -/
def membersOf (d : Declarations) (t : Ty) : Members :=
  (t.id?.bind (Assoc.get? d.table)).getD .empty

/-- Attaches members to the type of the given name that `id` stands for. -/
def define (d : Declarations) (id : TypeId) (typeName : String) (members : Members) :
    Except TypeError Declarations :=
  if Assoc.contains d.table id then .error (.membersAlreadyDefined typeName)
  else .ok ⟨d.table ++ [(id, members)]⟩

def ownFields (d : Declarations) (t : Ty) : List (String × Field) := (d.membersOf t).fields

def constructors (d : Declarations) (t : Ty) : List Method := (d.membersOf t).constructors

/-- Field of a type or else of the first super-type that has it. -/
def field? (d : Declarations) (t : Ty) (name : String) : Option Field :=
  match Assoc.get? (d.ownFields t) name with
  | some field => some field
  | none => t.supers.attach.findSome? fun ⟨u, _⟩ => d.field? u name
termination_by t.weight
decreasing_by exact Ty.weight_lt_of_mem_supers ‹_›

/-- `methods` with those of the inherited ones whose keys are new. -/
def addInherited (methods inherited : List Method) : List Method :=
  inherited.foldl (fun methods m =>
    if methods.any (·.key = m.key) then methods else methods ++ [m]) methods

/-- Methods of a name, own ones first; a key is listed once. -/
def methodsNamed (d : Declarations) (t : Ty) (name : String) : List Method :=
  t.supers.attach.foldl (fun methods ⟨u, _⟩ => addInherited methods (d.methodsNamed u name))
    ((d.membersOf t).methods.filter (·.name = name))
termination_by t.weight
decreasing_by exact Ty.weight_lt_of_mem_supers ‹_›

/-- Whether two types have the same key, the same kind, super-types of the same keys and own
fields of the same names and type keys, in the same order. -/
def structurallyEqual (d : Declarations) (t u : Ty) : Bool :=
  t.key = u.key && t.tag = u.tag &&
    t.supers.map Ty.key = u.supers.map Ty.key &&
    (d.ownFields t).map (fun (name, field) => (name, field.ty.key)) =
      (d.ownFields u).map (fun (name, field) => (name, field.ty.key))

end Declarations

end RuleExpr

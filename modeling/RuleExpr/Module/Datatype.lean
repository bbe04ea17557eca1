import RuleExpr.Module.Basic

/-!
# Declaring Datatypes

A datatype is a class of the module with fields and two constructors: one without arguments and, if
there are fields, one that takes a value for each.  Its objects also have the fields declared along
the chain of superclasses.
-/

namespace RuleExpr

namespace Datatype

/-- Fields of an object of type `t` with their unwritten values: those of the farthest superclass
first, the own ones last. -/
def layout (d : Declarations) (t : Ty) (own : FieldTable) : List (String × Value) :=
  let inherited := t.superclassChain.reverse.flatMap fun u => Assoc.values (d.ownFields u)
  Assoc.ofList ((inherited ++ Assoc.values own).map fun field =>
    (field.name, field.ty.defaultValue))

/-- Values of all fields after the own ones, as they were declared, have been given. -/
def fill (layout : List (String × Value)) (names : List String) (arguments : List Value) :
    List (String × Value) :=
  (names.zip arguments).foldl (fun fields pair => Assoc.insert fields pair.1 pair.2) layout

def emptyConstructor (id : Nat) (name : String) (t : Ty) (layout : List (String × Value)) :
    Method :=
  .native ⟨id, name, [], t, name, .constructor, none⟩ fun _ _ => .ok (.object name layout)

def fullConstructor (id : Nat) (name : String) (t : Ty) (layout : List (String × Value))
    (fields : List (String × Ty)) : Method :=
  .native ⟨id, name, fields.map (·.2), t, name, .constructor, none⟩ fun _ arguments =>
    .ok (.object name (fill layout (fields.map (·.1)) arguments))

/-- Members of the datatype `t`; its constructors get the numbers from `id` on. -/
def members (d : Declarations) (id : Nat) (name : String) (t : Ty) (fields : List (String × Ty)) :
    Members :=
  let own := (Members.ofFields (fields.map fun (n, u) => .plain n u name)).fields
  let layout := layout d t own
  let full := if fields = [] then [] else [fullConstructor (id + 1) name t layout fields]
  ⟨own, [], emptyConstructor id name t layout :: full⟩

end Datatype

namespace RuleModule

/-- Declares a datatype in the namespace of the module.  The result is the registered type, which
is an earlier one if that has the same structure. -/
def declareDatatype (m : RuleModule) (w : Workspace) (name : String) (supers : List Ty)
    (fields : List (String × Ty)) : Except ModuleError (Ty × RuleModule) × Workspace :=
  let (number, w) := w.freshType
  let (first, w) := w.freshMethod
  let (_, w) := w.freshMethod
  let t := Ty.record number ⟨m.ns, name⟩ supers
  let members := Datatype.members w.declarations first name t fields
  match w.declarations.define (.declared number) t.name members with
  | .error e => (.error (.type e), w)
  | .ok declarations => (m.addType declarations t, { w with declarations })

end RuleModule

end RuleExpr

import RuleExpr.Proofs.TypeConflicts
import RuleExpr.Proofs.Soundness.Casts
import Mathlib.Data.List.Basic

/-!
# Objects of a Datatype

The constructors of a datatype lay an object out along the chain of its superclasses: it has the
fields that the datatype and its superclasses declare, and a field that is declared more than once
has the default value of the nearest declaration.  Field lookup goes through all super-types.  The
two agree on a field that is declared once, by a class of the chain.  A field that comes from an
interface, or from a class that is not the first among the super-types, can be named on a datatype
whose objects do not have it.
-/

namespace RuleExpr

open Relation (ReflTransGen TransGen)

theorem Ty.above_of_extendChain {t u : Ty} {chain : List Ty} (h : u ∈ t.extendChain chain) :
    u ∈ chain ∨ TransGen Extends t u := by
  fun_induction extendChain t chain with
  | case1 => exact .inl h
  | case2 => exact .inl h
  | case3 t chain s hs _ ih =>
    have hstep : t.Extends s := List.mem_of_find?_eq_some hs
    rcases ih h with hmem | habove
    · rcases List.mem_append.1 hmem with hmem | hmem
      · exact .inl hmem
      · rw [List.mem_singleton.1 hmem]
        exact .inr (.single hstep)
    · exact .inr (.head hstep habove)

theorem Ty.above_of_superclassChain {t u : Ty} (h : u ∈ t.superclassChain) :
    TransGen Extends t u := by
  rcases above_of_extendChain h with hmem | habove
  · cases hmem
  · exact habove

namespace Declarations

variable {d : Declarations} {t : Ty} {name : String} {field : Field}

/-- The field of a name that objects of a type are laid out with: the one of the nearest class on
the chain that declares one, and there the last. -/
def laidOut? (d : Declarations) (t : Ty) (name : String) : Option Field :=
  (t :: t.superclassChain).findSome? fun u =>
    (Assoc.values (d.ownFields u)).reverse.find? (·.name = name)

theorem mem_of_laidOut? (h : d.laidOut? t name = some field) :
    field.name = name ∧ ∃ u ∈ t :: t.superclassChain, field ∈ Assoc.values (d.ownFields u) := by
  obtain ⟨u, hu, hfind⟩ := List.exists_of_findSome?_eq_some h
  refine ⟨by simpa using List.find?_some hfind, u, hu, ?_⟩
  exact List.mem_reverse.1 (List.mem_of_find?_eq_some hfind)

theorem laidOut?_isSome {u : Ty} (hu : u ∈ t :: t.superclassChain)
    (h : field ∈ Assoc.values (d.ownFields u)) : (d.laidOut? t field.name).isSome := by
  rw [laidOut?, List.findSome?_isSome_iff]
  refine ⟨u, hu, ?_⟩
  rw [List.find?_isSome]
  exact ⟨field, List.mem_reverse.2 h, by simp⟩

/-- A field that is found was declared by the type or by one above it. -/
theorem declared_of_field? {t : Ty} (h : d.field? t name = some field) :
    ∃ u, ReflTransGen Ty.Extends t u ∧ field ∈ Assoc.values (d.ownFields u) := by
  unfold field? at h
  split at h
  case h_1 own hown =>
    cases h
    exact ⟨t, .refl, List.mem_map_of_mem (Assoc.mem_of_get? hown)⟩
  case h_2 =>
    obtain ⟨⟨s, hs⟩, -, hfield⟩ := List.exists_of_findSome?_eq_some h
    replace hfield : d.field? s name = some field := hfield
    obtain ⟨u, habove, hdeclared⟩ := declared_of_field? hfield
    exact ⟨u, .head hs habove, hdeclared⟩
termination_by t.weight
decreasing_by exact Ty.weight_lt_of_mem_supers ‹_›

/-- A field that is declared once, and on the chain, is laid out. -/
theorem laidOut?_of_field? (h : d.field? t name = some field)
    (honce : ∀ u other, ReflTransGen Ty.Extends t u → other ∈ Assoc.values (d.ownFields u) →
      other.name = field.name → u ∈ t :: t.superclassChain ∧ other = field) :
    d.laidOut? t field.name = some field := by
  -- The chain has a field of this name, and the one that it finds can only be this one.
  obtain ⟨u, habove, hdeclared⟩ := declared_of_field? h
  have hchain := (honce u field habove hdeclared rfl).1
  obtain ⟨found, hfound⟩ := Option.isSome_iff_exists.1 (laidOut?_isSome hchain hdeclared)
  obtain ⟨hname, v, hv, hmem⟩ := mem_of_laidOut? hfound
  have habove' : ReflTransGen Ty.Extends t v := by
    rcases List.mem_cons.1 hv with rfl | hv
    · exact .refl
    · exact (Ty.above_of_superclassChain hv).to_reflTransGen
  rw [hfound, (honce v found habove' hmem hname).2]

end Declarations

namespace Datatype

/-- An object has a value for the fields that the type and its superclasses declare. -/
theorem get?_layout (d : Declarations) (t : Ty) (own : FieldTable) (name : String) :
    Assoc.get? (layout d t own) name =
      (((Assoc.values own).reverse.find? (·.name = name)).or
        (t.superclassChain.findSome? fun u =>
          (Assoc.values (d.ownFields u)).reverse.find? (·.name = name))).map
        (·.ty.defaultValue) := by
  have hfields (fields : List Field) : Assoc.get?
      (fields.map fun field => (field.name, field.ty.defaultValue)) name =
        (fields.find? (·.name = name)).map (·.ty.defaultValue) := by
    rw [Assoc.get?, List.find?_map, Option.map_map]
    rfl
  -- Later entries overwrite earlier ones, so the layout is searched from its end.
  rw [layout, Assoc.get?_ofList, ← List.map_reverse, hfields, List.reverse_append,
    List.find?_append, List.reverse_flatMap, List.reverse_reverse, List.find?_flatMap]
  rfl

theorem get?_fill (layout : List (String × Value)) (names : List String) (arguments : List Value)
    (name : String) :
    Assoc.get? (fill layout names arguments) name =
      (Assoc.get? (names.zip arguments).reverse name).or (Assoc.get? layout name) := by
  rw [fill, Assoc.get?_foldl_insert]
  cases Assoc.get? (names.zip arguments).reverse name <;> rfl

end Datatype

/-- Each of the given fields has one of its name in the table. -/
theorem Members.exists_of_ofFields {fields : List Field} {field : Field} (h : field ∈ fields) :
    ∃ own ∈ Assoc.values (ofFields fields).fields, own.name = field.name := by
  have hpresent : (Assoc.get? (ofFields fields).fields field.name).isSome := by
    rw [ofFields, Assoc.get?_ofList, Assoc.get?, Option.isSome_map, List.find?_isSome]
    exact ⟨(field.name, field), List.mem_reverse.2 (List.mem_map_of_mem h), by simp⟩
  obtain ⟨own, hown⟩ := Option.isSome_iff_exists.1 hpresent
  refine ⟨own, List.mem_map_of_mem (Assoc.mem_of_get? hown), ?_⟩
  rw [ofFields, Assoc.get?_ofList] at hown
  obtain ⟨other, -, hpair⟩ := List.mem_map.1 (List.mem_reverse.1 (Assoc.mem_of_get? hown))
  obtain ⟨hname, rfl⟩ := Prod.mk.inj hpair
  exact hname

/-- The members of `t` are those of a datatype, laid out over the members that were there before. -/
structure Datatype.Defines (before : Declarations) (id : Nat) (name : String) (t : Ty)
    (fields : List (String × Ty)) (d : Declarations) : Prop where
  members_eq : d.membersOf t = members before id name t fields
  inherited : ∀ u ∈ t.superclassChain, d.ownFields u = before.ownFields u

/-- The fields of an object: the value given last for a name, else the default value of the field
that is laid out. -/
def Datatype.Holds (d : Declarations) (t : Ty) (fields : List (String × Ty))
    (arguments : List Value) (values : List (String × Value)) : Prop :=
  ∀ n, Assoc.get? values n = (Assoc.get? ((fields.map (·.1)).zip arguments).reverse n).or
    ((d.laidOut? t n).map (·.ty.defaultValue))

namespace Datatype.Defines

variable {before d : Declarations} {id : Nat} {name : String} {t : Ty}
  {fields : List (String × Ty)} (h : Defines before id name t fields d)

include h

theorem ownFields_eq :
    d.ownFields t = (Members.ofFields (fields.map fun (n, u) => .plain n u name)).fields := by
  rw [Declarations.ownFields, h.members_eq]
  rfl

/-- The layout in terms of the members as they are after the declaration. -/
theorem get?_layout (n : String) :
    Assoc.get? (layout before t (d.ownFields t)) n =
      (d.laidOut? t n).map (·.ty.defaultValue) := by
  have hinherited : t.superclassChain.findSome? (fun u =>
        (Assoc.values (before.ownFields u)).reverse.find? (·.name = n)) =
      t.superclassChain.findSome? fun u =>
        (Assoc.values (d.ownFields u)).reverse.find? (·.name = n) := by
    rw [← List.head?_filterMap, ← List.head?_filterMap]
    refine congrArg List.head? (List.filterMap_congr fun u hu => ?_)
    rw [h.inherited u hu]
  rw [Datatype.get?_layout, hinherited, Declarations.laidOut?, List.findSome?_cons]
  cases (Assoc.values (d.ownFields t)).reverse.find? (·.name = n) <;> rfl

/-- The own fields are laid out. -/
theorem laysOwn {n : String} (hn : n ∈ fields.map (·.1)) : (d.laidOut? t n).isSome := by
  obtain ⟨⟨_, u⟩, hmem, rfl⟩ := List.mem_map.1 hn
  obtain ⟨field, hfield, hname⟩ := Members.exists_of_ofFields
    (List.mem_map_of_mem (f := fun (n, u) => Field.plain n u name) hmem)
  rw [← h.ownFields_eq] at hfield
  have hsome := Declarations.laidOut?_isSome List.mem_cons_self hfield
  rw [hname] at hsome
  exact hsome

theorem params_eq : (d.constructors t).map Method.params =
    [] :: (if fields = [] then [] else [fields.map (·.2)]) := by
  rw [Declarations.constructors, h.members_eq]
  simp only [members, List.map_cons]
  split <;> rfl

/-- A constructor writes its arguments over the layout. -/
theorem invoke_eq {c : Method} (hc : c ∈ d.constructors t) (receiver : Option Value)
    {arguments : List Value} (frames : Frames) (harguments : arguments.length = c.params.length) :
    ∃ values, c.invoke receiver arguments frames = (.ok (.object name values), frames) ∧
      Holds d t fields arguments values := by
  have hlayout := h.get?_layout
  rw [h.ownFields_eq] at hlayout
  rw [Declarations.constructors, h.members_eq] at hc
  rcases List.mem_cons.1 hc with rfl | hc
  · obtain rfl := List.eq_nil_of_length_eq_zero harguments
    refine ⟨_, by rw [emptyConstructor, Method.invoke]; rfl, fun n => ?_⟩
    rw [hlayout, List.zip_nil_right, List.reverse_nil, Assoc.get?_nil, Option.none_or]
  · split at hc
    · cases hc
    · rw [List.mem_singleton.1 hc]
      refine ⟨_, by rw [fullConstructor, Method.invoke]; rfl, fun n => ?_⟩
      rw [get?_fill, hlayout]

/-- An object lacks the fields that are not laid out, and no others. -/
theorem get?_eq_none_iff {arguments : List Value} {values : List (String × Value)}
    (hvalues : Holds d t fields arguments values) (n : String) :
    Assoc.get? values n = none ↔ d.laidOut? t n = none := by
  rw [hvalues, Option.or_eq_none_iff, Option.map_eq_none_iff]
  refine and_iff_right_of_imp fun hnone => ?_
  -- A value that is given belongs to an own field, and those are laid out.
  by_contra hgiven
  obtain ⟨value, hvalue⟩ := Option.ne_none_iff_exists'.1 hgiven
  have hown := (List.of_mem_zip (List.mem_reverse.1 (Assoc.mem_of_get? hvalue))).1
  have hlaid := h.laysOwn hown
  rw [hnone] at hlaid
  cases hlaid

end Datatype.Defines

/-- All types with members have numbers that were given out, and so have the super-types of a class
that is to be declared. -/
structure Workspace.Ready (w : Workspace) (supers : List Ty) : Prop where
  numbered : ∀ entry ∈ w.declarations.table, ∀ number, entry.1 = .declared number →
    number < w.nextType
  known : ∀ s ∈ supers, ∀ u, ReflTransGen Ty.Extends s u → w.Knows u

theorem Workspace.Ready.get?_fresh {w : Workspace} {supers : List Ty} (hw : w.Ready supers) :
    Assoc.get? w.declarations.table (.declared w.nextType) = none := by
  refine Option.eq_none_iff_forall_ne_some.2 fun members hmembers => ?_
  exact Nat.lt_irrefl _ (hw.numbered _ (Assoc.mem_of_get? hmembers) _ rfl)

theorem Workspace.Ready.contains_fresh {w : Workspace} {supers : List Ty} (hw : w.Ready supers) :
    Assoc.contains w.declarations.table (.declared w.nextType) = false := by
  rw [Assoc.contains_eq_isSome, hw.get?_fresh]
  rfl

section Declared

variable {w : Workspace} {supers : List Ty} (hw : w.Ready supers) (m : RuleModule) (name : String)
  (fields : List (String × Ty))

include hw

/-- Declaring a datatype defines its members, also if its name turns out to be taken. -/
theorem declareDatatype_snd :
    let t := Ty.record w.nextType ⟨m.ns, name⟩ supers
    let members := Datatype.members w.declarations w.nextMethod name t fields
    (m.declareDatatype w name supers fields).2 = { w with
      declarations := ⟨w.declarations.table ++ [(.declared w.nextType, members)]⟩
      nextType := w.nextType + 1
      nextMethod := w.nextMethod + 2 } := by
  intro t members
  simp only [RuleModule.declareDatatype, Workspace.freshType, Workspace.freshMethod,
    Declarations.define, hw.contains_fresh]
  rfl

theorem declareDatatype_defines :
    Datatype.Defines w.declarations w.nextMethod name (.record w.nextType ⟨m.ns, name⟩ supers)
      fields (m.declareDatatype w name supers fields).2.declarations := by
  have hsnd := declareDatatype_snd hw m name fields
  refine ⟨?_, fun u hu => ?_⟩
  · rw [hsnd]
    simp [Declarations.membersOf, Ty.id?, Assoc.get?_append, Assoc.get?_cons, hw.get?_fresh]
  · let t := Ty.record w.nextType ⟨m.ns, name⟩ supers
    have hdefine : w.declarations.define (.declared w.nextType) t.name
        (Datatype.members w.declarations w.nextMethod name t fields) =
          .ok (m.declareDatatype w name supers fields).2.declarations := by
      rw [hsnd]
      simp only [Declarations.define, hw.contains_fresh]
      rfl
    have hextends : w.Extends (m.declareDatatype w name supers fields).2 :=
      .of_define (by rw [hsnd]) hdefine
    obtain ⟨s, hs, habove⟩ := TransGen.head'_iff.1 (Ty.above_of_superclassChain hu)
    exact congrArg Members.fields (hextends.members u (hw.known s hs u habove))

/-- The new class can be extended in turn. -/
theorem Workspace.Ready.declareDatatype :
    (m.declareDatatype w name supers fields).2.Ready
      [.record w.nextType ⟨m.ns, name⟩ supers] := by
  rw [declareDatatype_snd hw m name fields]
  refine ⟨?_, List.forall_mem_singleton.2 ?_⟩
  · intro entry hentry number hnumber
    rcases List.mem_append.1 hentry with hentry | hentry
    · exact Nat.lt_succ_of_lt (hw.numbered entry hentry number hnumber)
    · rw [List.mem_singleton.1 hentry] at hnumber
      cases hnumber
      exact Nat.lt_succ_self _
  · intro u habove number hnumber
    rcases ReflTransGen.cases_head habove with rfl | ⟨s, hs, habove⟩
    · cases hnumber
      exact Nat.lt_succ_self _
    · exact Nat.lt_succ_of_lt (hw.known s hs u habove number hnumber)

end Declared

/-- The new class or, if its name is taken, an earlier type of the module is answered. -/
theorem declareDatatype_fst {m m' : RuleModule} {w : Workspace} {name : String} {supers : List Ty}
    {fields : List (String × Ty)} {u : Ty}
    (h : (m.declareDatatype w name supers fields).1 = .ok (u, m')) :
    u = .record w.nextType ⟨m.ns, name⟩ supers ∨ u ∈ Assoc.values m.types := by
  simp only [RuleModule.declareDatatype, Workspace.freshType, Workspace.freshMethod] at h
  split at h
  · cases h
  · unfold RuleModule.addType at h
    split at h
    case h_1 known hknown =>
      split at h
      · cases h
        exact .inr (List.mem_map_of_mem (Assoc.mem_of_get? hknown))
      · cases h
    case h_2 =>
      cases h
      exact .inl rfl

theorem Value.readField_unknown_iff {t : Ty} {typeName name : String}
    {values : List (String × Value)} :
    (Value.object typeName values).readField t name = .error (.unknownField name) ↔
      Assoc.get? values name = none := by
  cases hget : Assoc.get? values name <;> simp [readField, hget]

/-- The objects that the constructors of a new datatype `t` make.  They are laid out along its
superclasses, with the arguments for the own fields, the last one if a name is repeated, and
default values for all others.  Reading a field fails exactly if it is not laid out.  A visible
field is laid out if it is declared once, and by a class of the chain. -/
theorem declareDatatype_objects {w : Workspace} {supers : List Ty} (hw : w.Ready supers)
    (m : RuleModule) (name : String) (fields : List (String × Ty)) :
    let t := Ty.record w.nextType ⟨m.ns, name⟩ supers
    let d := (m.declareDatatype w name supers fields).2.declarations
    (∀ u m', (m.declareDatatype w name supers fields).1 = .ok (u, m') →
      u = t ∨ u ∈ Assoc.values m.types) ∧
    (d.constructors t).map Method.params =
      [] :: (if fields = [] then [] else [fields.map (·.2)]) ∧
    (∀ c ∈ d.constructors t, ∀ receiver arguments (frames : Frames),
      arguments.length = c.params.length →
      ∃ values, c.invoke receiver arguments frames = (.ok (.object name values), frames) ∧
        Datatype.Holds d t fields arguments values ∧
        ∀ n, (Value.object name values).readField t n = .error (.unknownField n) ↔
          d.laidOut? t n = none) ∧
    ∀ n field, d.field? t n = some field →
      (∀ u other, ReflTransGen Ty.Extends t u → other ∈ Assoc.values (d.ownFields u) →
        other.name = field.name → u ∈ t :: t.superclassChain ∧ other = field) →
      d.laidOut? t field.name = some field := by
  intro t d
  have hdefines : Datatype.Defines w.declarations w.nextMethod name t fields d :=
    declareDatatype_defines hw m name fields
  refine ⟨fun u m' => declareDatatype_fst, hdefines.params_eq, ?_,
    fun n field => Declarations.laidOut?_of_field?⟩
  intro c hc receiver arguments frames harguments
  obtain ⟨values, hinvoke, hvalues⟩ := hdefines.invoke_eq hc receiver frames harguments
  refine ⟨values, hinvoke, hvalues, fun n => ?_⟩
  rw [Value.readField_unknown_iff, hdefines.get?_eq_none_iff hvalues]

namespace Heirs

def owner : RuleModule := .empty "Rules" "rules" 0

/-- The class `Base` with the field `b`. -/
def base : Ty := .record 0 ⟨"rules", "Base"⟩ []

def withBase : Workspace := (owner.declareDatatype .empty "Base" [] [("b", .int)]).2

/-- The interface `Named` with the field `n`. -/
def named : Ty := .interface 0 ⟨"rules", "Named"⟩ []

def withNamed : Workspace :=
  { Workspace.empty with
    declarations := ⟨[(.declared 0, .ofFields [.plain "n" .int "Named"])]⟩
    nextType := 1 }

theorem ready_base : withBase.Ready [base] := by
  have hempty : Workspace.empty.Ready [] := ⟨nofun, nofun⟩
  exact hempty.declareDatatype owner "Base" [("b", .int)]

theorem ready_named : withNamed.Ready [named] := by
  refine ⟨?_, List.forall_mem_singleton.2 ?_⟩
  · rintro entry hentry number hnumber
    rw [List.mem_singleton.1 hentry] at hnumber
    cases hnumber
    exact Nat.zero_lt_one
  · intro u habove number hnumber
    rcases ReflTransGen.cases_head habove with rfl | ⟨s, hs, -⟩
    · cases hnumber
      exact Nat.zero_lt_one
    · cases hs

/-- A class over `base`. -/
def derived : Ty := .record 1 ⟨"rules", "Derived"⟩ [base]

/-- A class over `named`. -/
def holder : Ty := .record 1 ⟨"rules", "Holder"⟩ [named]

theorem superclassChain_derived : derived.superclassChain = [base] := by
  have hbase : Ty.extendChain base [base] = [base] := by
    rw [Ty.extendChain]
    rfl
  rw [Ty.superclassChain, Ty.extendChain]
  exact hbase

theorem superclassChain_holder : holder.superclassChain = [] := by
  rw [Ty.superclassChain, Ty.extendChain]
  rfl

end Heirs

/-- An object of a class with a superclass has the field that it inherits. -/
theorem declareDatatype_objects_derived :
    let d := (Heirs.owner.declareDatatype Heirs.withBase "Derived" [Heirs.base]
      [("x", .int)]).2.declarations
    Heirs.withBase.Ready [Heirs.base] ∧ ∃ c ∈ d.constructors Heirs.derived, c.params = [.int] ∧
      ∀ frames : Frames, ∃ values,
        c.invoke none [.int 7] frames = (.ok (.object "Derived" values), frames) ∧
        Assoc.get? values "x" = some (.int 7) ∧ Assoc.get? values "b" = some (.int 0) := by
  intro d
  obtain ⟨-, hparams, hobjects, -⟩ :=
    declareDatatype_objects Heirs.ready_base Heirs.owner "Derived" [("x", .int)]
  have hlaid : d.laidOut? Heirs.derived "b" = some (.plain "b" .int "Base") := by
    rw [Declarations.laidOut?, Heirs.superclassChain_derived]
    rfl
  have hfull : [.int] ∈ (d.constructors Heirs.derived).map Method.params := by
    refine hparams ▸ List.mem_cons_of_mem _ ?_
    exact List.mem_cons_self
  obtain ⟨c, hc, hcparams⟩ := List.mem_map.1 hfull
  refine ⟨Heirs.ready_base, c, hc, hcparams, fun frames => ?_⟩
  obtain ⟨values, hinvoke, hvalues, -⟩ := hobjects c hc none [.int 7] frames (by rw [hcparams]; rfl)
  refine ⟨values, hinvoke, hvalues "x", ?_⟩
  rw [hvalues "b"]
  exact congrArg (Option.map _) hlaid

/-- A field of an interface can be named on a class whose objects do not have it. -/
theorem declareDatatype_loses_field :
    let result := Heirs.owner.declareDatatype Heirs.withNamed "Holder" [Heirs.named] [("x", .int)]
    let d := result.2.declarations
    (∃ m', result.1 = .ok (Heirs.holder, m')) ∧ (∃ field, d.field? Heirs.holder "n" = some field) ∧
      ∀ c ∈ d.constructors Heirs.holder, ∀ arguments (frames : Frames),
        arguments.length = c.params.length →
        ∃ values, c.invoke none arguments frames = (.ok (.object "Holder" values), frames) ∧
          (Value.object "Holder" values).readField Heirs.holder "n" =
            .error (.unknownField "n") := by
  intro result d
  refine ⟨⟨_, rfl⟩, ?_, ?_⟩
  · have hnamed : d.field? Heirs.named "n" = some (.plain "n" .int "Named") := by
      rw [Declarations.field?]
      rfl
    have hown : Assoc.get? (d.ownFields Heirs.holder) "n" = none := rfl
    refine ⟨.plain "n" .int "Named", ?_⟩
    rw [Declarations.field?, hown]
    simp [Heirs.holder, Ty.supers, hnamed]
  · intro c hc arguments frames harguments
    have hdefines := declareDatatype_defines Heirs.ready_named Heirs.owner "Holder" [("x", .int)]
    obtain ⟨values, hinvoke, hvalues⟩ := hdefines.invoke_eq hc none frames harguments
    have hlaid : d.laidOut? Heirs.holder "n" = none := by
      rw [Declarations.laidOut?, Heirs.superclassChain_holder]
      rfl
    refine ⟨values, hinvoke, ?_⟩
    rw [Value.readField_unknown_iff]
    exact (hdefines.get?_eq_none_iff hvalues "n").2 hlaid

end RuleExpr

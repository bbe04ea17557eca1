import RuleExpr.Proofs.Soundness.Operators
import RuleExpr.Proofs.Soundness.Trees
import Mathlib.Data.List.Nodup

/-!
# Modules That Keep Their Promises

`Program.Sound` collects what type soundness asks of a module.  Most of it speaks about all types
that the module can reach.  For a module whose own classes extend nothing, it follows from what can
be read off the tables of the module: the types are the built-in ones, those of the module, and the
arrays over them, and they have keys of their own as soon as these elements have.
-/

namespace RuleExpr

open BindState

/-- What a module promises of its own parts.  Its types are told apart by their keys and agree
about inherited fields, its constants have the types of their fields, and its methods and
constructors keep to their signatures. -/
structure Program.Sound (P : Program) (O : Ty → Prop) : Prop
    extends P.TypesIn O, Coherent P.declarations O where
  constant : ∀ {name : String} {field : Field}, P.field? name = some field →
    ∃ v, field.constant = some v ∧ Assignable P.declarations v field.ty
  free : ∀ {name : String} {m : Method}, m ∈ P.methodsNamed name →
    m.Preserves P.declarations none
  member : ∀ {t : Ty} {name : String} {m : Method}, O t →
    m ∈ P.declarations.methodsNamed t name → m.head.isStatic = false →
    m.Preserves P.declarations (some t)
  static : ∀ {t : Ty} {name : String} {m : Method}, m ∈ P.declarations.methodsNamed t name →
    m.head.isStatic = true → m.Preserves P.declarations none
  constructor : ∀ {t : Ty} {m : Method}, m ∈ P.declarations.constructors t →
    m.Preserves P.declarations none

/-- The array types that the module has met so far are among its types. -/
structure BindState.Sound (s : BindState) (O : Ty → Prop) : Prop extends s.program.Sound O where
  interned : ∀ t ∈ s.interned, O t

namespace Ty

/-- Innermost element of an array type; other types stay. -/
def element : Ty → Ty
  | array component => component.element
  | t => t

/-- All built-in types. -/
def builtins : List Ty := [null, error] ++ named

theorem mem_builtins {t : Ty} {key : TypeKey} (h : t.id? = some (.builtin key)) :
    t ∈ builtins := by
  cases t with
  | primitive p => cases p <;> simp [builtins, named, Primitive.all]
  | boxed p => cases p <;> simp [builtins, named, Primitive.all]
  | wrapper kind => cases kind <;> simp [builtins, named, MetaKind.all]
  | record | interface | collection | array => cases h
  | _ => simp [builtins, named]

/-- Arrays, of any number of dimensions, over built-in types and those of a list. -/
def Over (own : List Ty) (t : Ty) : Prop := t.element ∈ builtins ++ own

theorem id?_of_mem_builtins {t : Ty} (h : t ∈ builtins) : t.id? = some (.builtin t.key) := by
  have hall : (builtins.all fun t => t.id? = some (.builtin t.key)) = true := by decide +kernel
  exact of_decide_eq_true (List.all_eq_true.1 hall t h)

section Over

variable {own : List Ty} {t u : Ty}

theorem over_of_mem (h : t ∈ builtins ++ own) (harray : t.isArray = false) : Over own t := by
  cases t <;> first | exact h | cases harray

theorem over_builtin {key : TypeKey} (h : t.id? = some (.builtin key)) : Over own t := by
  refine over_of_mem (List.mem_append_left _ (mem_builtins h)) ?_
  cases t <;> first | rfl | cases h

/-- A declared type over the elements is one of them. -/
theorem Over.mem_own (h : Over own t) (ht : t.isArray = false)
    (hbuiltin : t.id? ≠ some (.builtin t.key)) : t ∈ own := by
  have hmem : t ∈ builtins ++ own := by cases t <;> first | exact h | cases ht
  rcases List.mem_append.1 hmem with hmem | hmem
  · exact absurd (id?_of_mem_builtins hmem) hbuiltin
  · exact hmem

variable (hown : ∀ t ∈ own, t.isDeclared ∧ ∀ u ∈ t.supers, Over own u)

include hown

theorem over_closed : Closed (Over own) where
  builtin h := over_builtin h
  component := by
    intro t u ht hu
    cases t with
    | array component =>
      cases hu
      exact ht
    | list =>
      cases hu
      exact over_builtin rfl
    | collection id name element =>
      obtain ⟨hdeclared, -⟩ := hown _ (ht.mem_own rfl nofun)
      cases hdeclared
    | _ => cases hu
  super := by
    intro t u ht hu
    cases t with
    | record id name supers => exact (hown _ (ht.mem_own rfl nofun)).2 u hu
    | interface id name supers => exact (hown _ (ht.mem_own rfl nofun)).2 u hu
    | boxed p =>
      rcases isDeclared_or_number_of_super hu with hdeclared | rfl
      · cases hdeclared
      · exact over_builtin rfl
    | bigInteger | bigDecimal =>
      rw [List.mem_singleton.1 hu]
      exact over_builtin rfl
    | _ => cases hu
  array h := h

omit hown in
theorem dimensions_eq_zero (h : ∀ component, t ≠ array component) : t.dimensions = 0 := by
  cases t with
  | array component => exact absurd rfl (h component)
  | _ => rfl

omit hown in
/-- Types over the elements have keys of their own if the elements have. -/
theorem Over.eq_of_key (hkeys : ((builtins ++ own).map key).Nodup) (ht : Over own t)
    (hu : Over own u) (hkey : t.key = u.key) : t = u := by
  unfold Over at ht
  fun_induction element t generalizing u with
  | case1 component ih =>
    cases u with
    | array other =>
      have hinner : component.key = other.key := by
        simpa [key, elementName, dimensions] using hkey
      rw [ih (u := other) ht hu hinner]
    | _ => cases congrArg TypeKey.dimensions hkey
  | case2 t harray =>
    cases u with
    | array other =>
      have hdimensions : t.dimensions = other.dimensions + 1 := congrArg TypeKey.dimensions hkey
      rw [dimensions_eq_zero harray] at hdimensions
      cases hdimensions
    | _ => exact List.inj_on_of_nodup_map hkeys ht hu hkey

omit hown in
/-- Arrays have no super-types, and the hierarchies of built-in types have two types at most. -/
theorem Over.weight_le {most : Nat} (hweights : ∀ t ∈ own, t.weight ≤ most) (hmost : 2 ≤ most)
    (ht : Over own t) : t.weight ≤ most := by
  have hbuiltins : ∀ t ∈ builtins, t.weight ≤ 2 := by
    have hall : (builtins.all fun t => t.weight ≤ 2) = true := by decide +kernel
    exact fun t hmem => of_decide_eq_true (List.all_eq_true.1 hall t hmem)
  cases t with
  | array component => exact Nat.le_of_succ_le hmost
  | _ =>
    rcases List.mem_append.1 ht with hmem | hmem
    · exact Nat.le_trans (hbuiltins _ hmem) hmost
    · exact hweights _ hmem

end Over

end Ty

namespace Declarations

variable {d : Declarations} {name : String}

theorem mem_table_or_empty (d : Declarations) (t : Ty) :
    (∃ id, t.id? = some id ∧ (id, d.membersOf t) ∈ d.table) ∨ d.membersOf t = .empty := by
  unfold membersOf
  cases hid : t.id? with
  | none => exact .inr rfl
  | some id =>
    cases hget : Assoc.get? d.table id with
    | none =>
      refine .inr ?_
      rw [Option.bind_some, hget]
      rfl
    | some members =>
      refine .inl ⟨id, rfl, ?_⟩
      rw [Option.bind_some, hget]
      exact Assoc.mem_of_get? hget

theorem mem_of_constructors {t : Ty} {m : Method} (h : m ∈ d.constructors t) :
    ∃ entry ∈ d.table, m ∈ entry.2.constructors := by
  rcases d.mem_table_or_empty t with ⟨id, -, hentry⟩ | hempty
  · exact ⟨_, hentry, h⟩
  · rw [constructors, hempty] at h
    cases h

theorem mem_of_field? {t : Ty} {field : Field} (h : d.field? t name = some field) :
    ∃ entry ∈ d.table, (name, field) ∈ entry.2.fields := by
  unfold field? at h
  split at h
  case h_1 own hown =>
    cases h
    rcases d.mem_table_or_empty t with ⟨id, -, hentry⟩ | hempty
    · exact ⟨_, hentry, Assoc.mem_of_get? hown⟩
    · rw [ownFields, hempty] at hown
      cases hown
  case h_2 =>
    obtain ⟨⟨u, hu⟩, -, hfield⟩ := List.exists_of_findSome?_eq_some h
    replace hfield : d.field? u name = some field := hfield
    exact mem_of_field? hfield
termination_by t.weight
decreasing_by exact Ty.weight_lt_of_mem_supers ‹_›

/-- Without methods in the table no type has any. -/
theorem methodsNamed_eq_nil {t : Ty} (h : ∀ entry ∈ d.table, entry.2.methods = []) :
    d.methodsNamed t name = [] := by
  have hown : (d.membersOf t).methods = [] := by
    rcases d.mem_table_or_empty t with ⟨id, -, hentry⟩ | hempty
    · exact h _ hentry
    · rw [hempty]
      rfl
  rw [methodsNamed, hown, List.filter_nil]
  induction t.supers.attach with
  | nil => rfl
  | cons super rest ih =>
    obtain ⟨u, hu⟩ := super
    have hsuper : d.methodsNamed u name = [] := methodsNamed_eq_nil h
    simpa [hsuper, addInherited] using ih
termination_by t.weight
decreasing_by exact Ty.weight_lt_of_mem_supers ‹_›

end Declarations

/-! ## Modules of plain classes -/

theorem RuleModule.mem_of_findType {m : RuleModule} {name : String} {t : Ty}
    (h : m.findType name = some t) :
    t ∈ Assoc.values (m.types ++ m.importedTypes) ∨ t ∈ Ty.named := by
  have hvalue {table : TypeTable} {key : TypeKey} (hget : Assoc.get? table key = some t) :
      t ∈ Assoc.values table :=
    List.mem_map_of_mem (Assoc.mem_of_get? hget)
  have hvalues : Assoc.values (m.types ++ m.importedTypes) =
      Assoc.values m.types ++ Assoc.values m.importedTypes := List.map_append
  simp only [findType, Option.orElse_eq_orElse, Option.orElse_eq_or, Option.or_eq_some_iff] at h
  rcases h with h | ⟨-, h | ⟨-, h⟩⟩
  · obtain ⟨qualified, -, h⟩ := Option.bind_eq_some_iff.1 h
    simp only [Option.orElse_eq_orElse, Option.orElse_eq_or, Option.or_eq_some_iff] at h
    rw [hvalues, List.mem_append]
    exact .inl (h.imp hvalue fun h => hvalue h.2)
  · exact .inl (List.mem_of_find?_eq_some h)
  · exact .inr (List.mem_of_find?_eq_some h)

/-- What the tables of a module show if its own types are classes that extend nothing and have no
methods. -/
structure Program.Flat (P : Program) (own : List Ty) : Prop where
  classes : ∀ t ∈ own, t.isDeclared ∧ t.supers = []
  keys : ((Ty.builtins ++ own).map Ty.key).Nodup
  named : ∀ {name : String} {t : Ty}, P.findType name = some t → t ∈ Ty.builtins ++ own
  field : ∀ {name : String} {field : Field}, P.field? name = some field →
    Ty.Over own field.ty ∧ ∃ v, field.constant = some v ∧ Assignable P.declarations v field.ty
  free : ∀ {name : String} {m : Method}, m ∈ P.methodsNamed name →
    m.SignatureIn (Ty.Over own) ∧ m.Preserves P.declarations none
  declared : ∀ entry ∈ P.declarations.table, ∃ number, entry.1 = .declared number
  methods : ∀ entry ∈ P.declarations.table, entry.2.methods = []
  fields : ∀ entry ∈ P.declarations.table, ∀ pair ∈ entry.2.fields, Ty.Over own pair.2.ty
  constructors : ∀ entry ∈ P.declarations.table, ∀ m ∈ entry.2.constructors,
    m.SignatureIn (Ty.Over own) ∧ m.Preserves P.declarations none

namespace Program.Flat

variable {P : Program} {own : List Ty} (h : P.Flat own)

include h

theorem ownFields_eq_nil {t : Ty} {key : TypeKey} (ht : t.id? = some (.builtin key)) :
    P.declarations.ownFields t = [] := by
  rcases P.declarations.mem_table_or_empty t with ⟨id, hid, hentry⟩ | hempty
  · obtain ⟨number, hnumber⟩ := h.declared _ hentry
    rw [ht] at hid
    cases hid
    cases hnumber
  · rw [Declarations.ownFields, hempty]
    rfl

theorem isDeclared_of_ownFields {t : Ty} (ht : Ty.Over own t)
    (hfields : P.declarations.ownFields t ≠ []) : t.isDeclared := by
  rcases List.mem_append.1 ht with hmem | hmem
  · cases t with
    | array component => exact absurd rfl hfields
    | _ => exact absurd (h.ownFields_eq_nil (Ty.id?_of_mem_builtins hmem)) hfields
  · cases t with
    | array component => exact absurd rfl hfields
    | _ => exact (h.classes _ hmem).1

theorem supers_eq_nil {t : Ty} (ht : Ty.Over own t) (hdeclared : t.isDeclared) :
    t.supers = [] := by
  cases t with
  | record | interface => exact (h.classes _ (ht.mem_own rfl nofun)).2
  | _ => cases hdeclared

/-- No key is used twice and nothing is inherited but from the built-in numbers, which declare
nothing. -/
theorem coherent : Coherent P.declarations (Ty.Over own) where
  toClosed := Ty.over_closed fun t ht => (h.classes t ht).imp_right fun hsupers u hu => by
    rw [hsupers] at hu
    cases hu
  eq_of_key := Ty.Over.eq_of_key h.keys
  declares := h.isDeclared_of_ownFields
  extends_class ht hdeclared hu := by
    rw [h.supers_eq_nil ht hdeclared] at hu
    cases hu
  inherited := by
    intro t u name field ht hu hfield
    rcases Ty.isDeclared_or_number_of_super hu with hdeclared | rfl
    · rw [h.supers_eq_nil ht hdeclared] at hu
      cases hu
    · rw [Declarations.field?, h.ownFields_eq_nil rfl] at hfield
      cases hfield

theorem sound : P.Sound (Ty.Over own) where
  toCoherent := h.coherent
  named := by
    intro name t ht
    have hmem := h.named ht
    refine Ty.over_of_mem hmem ?_
    rcases List.mem_append.1 hmem with hmem | hmem
    · have hid := Ty.id?_of_mem_builtins hmem
      cases t <;> first | rfl | cases hid
    · have hdeclared := (h.classes t hmem).1
      cases t <;> first | rfl | cases hdeclared
  moduleField hfield := (h.field hfield).1
  memberField _ hfield := by
    obtain ⟨entry, hentry, hmem⟩ := Declarations.mem_of_field? hfield
    exact h.fields entry hentry _ hmem
  signature := by
    rintro m (hm | ⟨-, hm⟩ | ⟨-, hm⟩)
    · exact (h.free hm).1
    · rw [Declarations.methodsNamed_eq_nil h.methods] at hm
      cases hm
    · obtain ⟨entry, hentry, hmem⟩ := Declarations.mem_of_constructors hm
      exact (h.constructors entry hentry m hmem).1
  constant hfield := (h.field hfield).2
  free hm := (h.free hm).2
  member _ hm := by
    rw [Declarations.methodsNamed_eq_nil h.methods] at hm
    cases hm
  static hm := by
    rw [Declarations.methodsNamed_eq_nil h.methods] at hm
    cases hm
  constructor hm := by
    obtain ⟨entry, hentry, hmem⟩ := Declarations.mem_of_constructors hm
    exact (h.constructors entry hentry _ hmem).2

end Program.Flat

/-- A module that has the given types and nothing else. -/
def RuleModule.ofTypes (types : List Ty) : RuleModule :=
  { RuleModule.empty "Rules" "rules" 0 with types := types.map fun t => (t.key, t) }

/-- A fresh context over such a module, after four types were declared. -/
def typesOnly (types : List Ty) : BindState :=
  start (.ofTypes types) { Workspace.empty with nextType := 4 }

theorem typesOnly_typesIn {own : List Ty}
    (hown : ∀ t ∈ own, t.isDeclared ∧ ∀ u ∈ t.supers, Ty.Over own u) :
    (typesOnly own).program.TypesIn (Ty.Over own) where
  toClosed := Ty.over_closed hown
  named := by
    intro name t ht
    rcases RuleModule.mem_of_findType ht with hmem | hmem
    · replace hmem : t ∈ own := by
        change t ∈ Assoc.values (own.map (fun t => (t.key, t)) ++ []) at hmem
        rw [List.append_nil, Assoc.values, List.map_map] at hmem
        exact List.map_id own ▸ hmem
      have hdeclared := (hown t hmem).1
      refine Ty.over_of_mem (List.mem_append_right _ hmem) ?_
      cases t <;> first | rfl | cases hdeclared
    · exact Ty.over_builtin (Ty.id?_of_mem_builtins (List.mem_append_right _ hmem))
  moduleField := nofun
  memberField _ hfield := by
    obtain ⟨entry, hentry, -⟩ := Declarations.mem_of_field? hfield
    cases hentry
  signature := by
    rintro m (hm | ⟨-, hm⟩ | ⟨-, hm⟩)
    · cases hm
    · have htable : ∀ entry ∈ (typesOnly own).program.declarations.table,
          entry.2.methods = [] := List.forall_mem_nil _
      rw [Declarations.methodsNamed_eq_nil htable] at hm
      cases hm
    · obtain ⟨entry, hentry, -⟩ := Declarations.mem_of_constructors hm
      cases hentry

theorem typesOnly_knows (own : List Ty) (O : Ty → Prop) :
    (typesOnly own).Knows (typesOnly own).program O where
  program := rfl
  interned := List.forall_mem_nil _
  vars var hvar := absurd (start_slotsBelow _ _ var hvar) (Nat.not_lt_zero _)

namespace Point

def ty : Ty := .record 0 ⟨"rules", "Point"⟩ []

def members : Members where
  fields := [("x", .plain "x" .int "Point")]
  methods := []
  constructors :=
    [Datatype.emptyConstructor 1 "Point" ty [("x", .int 0)],
      Datatype.fullConstructor 2 "Point" ty [("x", .int 0)] [("x", .int)]]

def workspace : Workspace :=
  { Workspace.empty with
    declarations := ⟨[(.declared 0, members)]⟩
    nextType := 1
    nextMethod := 3 }

def owner : RuleModule := { RuleModule.empty "Rules" "rules" 0 with types := [(ty.key, ty)] }

/-- The class is what declaring it in an empty module gives. -/
theorem declare_eq :
    (RuleModule.empty "Rules" "rules" 0).declareDatatype .empty "Point" [] [("x", .int)] =
      (.ok (ty, owner), workspace) := by
  have hchain : ty.superclassChain = [] := by
    rw [Ty.superclassChain, Ty.extendChain]
    rfl
  have hmembers : Datatype.members .empty 1 "Point" ty [("x", .int)] = members := by
    rw [Datatype.members, Datatype.layout, hchain]
    rfl
  rw [workspace, ← hmembers]
  rfl

theorem field_eq {name : String} {field : Field}
    (h : workspace.declarations.field? ty name = some field) :
    field = .plain "x" .int "Point" := by
  rw [Declarations.field?] at h
  split at h
  case h_1 own hown =>
    cases h
    have hmem := Assoc.mem_of_get? hown
    exact (Prod.mk.inj (List.mem_singleton.1 hmem)).2
  case h_2 => cases h

theorem assignable {x : Value} (hx : Assignable workspace.declarations x .int) :
    Assignable workspace.declarations (.object "Point" [("x", x)]) ty := by
  refine .object rfl ?_ ?_
  · intro name field hfield
    rw [field_eq hfield]
    rfl
  · intro name field v hfield hv
    rw [field_eq hfield] at hv ⊢
    cases hv
    exact hx

theorem flat : (start owner workspace).program.Flat [ty] where
  classes := List.forall_mem_singleton.2 ⟨rfl, rfl⟩
  keys := by decide +kernel
  named := by
    intro name t ht
    rcases RuleModule.mem_of_findType ht with hmem | hmem
    · exact List.mem_append_right _ hmem
    · exact List.mem_append_left _ (List.mem_append_right _ hmem)
  field := nofun
  free := nofun
  declared := List.forall_mem_singleton.2 ⟨0, rfl⟩
  methods := List.forall_mem_singleton.2 rfl
  fields := List.forall_mem_singleton.2 (List.forall_mem_singleton.2 (Ty.over_builtin rfl))
  constructors := by
    have hty : Ty.Over [ty] ty := Ty.over_of_mem (List.mem_append_right _ List.mem_cons_self) rfl
    have hint : Ty.Over [ty] .int := Ty.over_builtin rfl
    refine List.forall_mem_singleton.2 (List.forall_mem_cons.2 ⟨⟨?_, ?_⟩, ?_⟩)
    · exact List.forall_mem_singleton.2 hty
    · intro receiver arguments frames _ _
      rw [Datatype.emptyConstructor, Method.invoke]
      exact assignable (.defaultValue _ .int)
    · refine List.forall_mem_singleton.2 ⟨?_, ?_⟩
      · exact List.forall_mem_cons.2 ⟨hty, List.forall_mem_singleton.2 hint⟩
      · intro receiver arguments frames _ harguments
        cases harguments with
        | cons hx hrest =>
          cases hrest with
          | nil =>
            rw [Datatype.fullConstructor, Method.invoke]
            exact assignable hx

theorem sound : (start owner workspace).Sound (Ty.Over [ty]) where
  toSound := flat.sound
  interned := List.forall_mem_nil _

end Point

namespace Five

def field : Field := .ofConstant "o" .object "Rules" (.int 5)

def owner : RuleModule :=
  let empty := RuleModule.empty "Rules" "rules" 0
  { empty with
    methods := [empty.accessor 1 field]
    fields := [(field.name, field)] }

theorem flat : (start owner .empty).program.Flat [] where
  classes := List.forall_mem_nil _
  keys := by decide +kernel
  named := by
    intro name t ht
    rcases RuleModule.mem_of_findType ht with hmem | hmem
    · cases hmem
    · exact List.mem_append_left _ (List.mem_append_right _ hmem)
  field := by
    intro name found hfound
    obtain rfl : found = field := by
      have hget : Assoc.get? [(field.name, field)] name = some found := by
        change (RuleModule.getField _ name).1 = some found at hfound
        unfold RuleModule.getField at hfound
        split at hfound
        case h_1 own hown => exact hown.trans hfound
        case h_2 => cases hfound
      exact (Prod.mk.inj (List.mem_singleton.1 (Assoc.mem_of_get? hget))).2
    exact ⟨Ty.over_builtin rfl, .int 5, rfl, .top rfl⟩
  free := by
    intro name m hm
    obtain rfl : m = RuleModule.accessor (.empty "Rules" "rules" 0) 1 field := by
      rcases List.mem_append.1 hm with hm | hm
      · exact List.mem_singleton.1 (List.mem_filter.1 hm).1
      · cases hm
    exact ⟨List.forall_mem_singleton.2 (Ty.over_builtin rfl), fun _ _ _ _ _ => .top rfl⟩
  declared := List.forall_mem_nil _
  methods := List.forall_mem_nil _
  fields := List.forall_mem_nil _
  constructors := List.forall_mem_nil _

end Five

end RuleExpr

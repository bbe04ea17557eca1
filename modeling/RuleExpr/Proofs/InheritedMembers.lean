import RuleExpr.Declarations
import RuleExpr.Proofs.AncestorLists
import RuleExpr.Proofs.FirstOfKey

/-!
# Inherited Members

Members are looked up depth first: on the type itself, then on each super-type with everything
above it.  `Ty.depthFirst` lists the types in this order, a type once for every chain that leads to
it.  The field of a name is the one of the first type that declares it, and the methods of a name
are those that are the first of their keys.

Ancestors are listed level by level instead, and each key once.  The two lists hold the same keys,
so that lookup and ancestry meet the same members wherever types of one key declare alike.
-/

namespace RuleExpr

namespace Ty

variable {O : Ty → Prop} {t u v : Ty}

/-- Induction from the super-types of a type to the type. -/
@[elab_as_elim]
theorem inductionOnSupers {motive : Ty → Prop}
    (step : ∀ t, (∀ u ∈ t.supers, motive u) → motive t) (t : Ty) : motive t :=
  step t fun u _ => inductionOnSupers step u
termination_by t.weight
decreasing_by exact weight_lt_of_mem_supers ‹_›

/-- A type and everything above it, in the order in which members are looked up. -/
def depthFirst (t : Ty) : List Ty :=
  t :: t.supers.attach.flatMap fun ⟨u, _⟩ => u.depthFirst
termination_by t.weight
decreasing_by exact weight_lt_of_mem_supers ‹_›

/-- A type and its ancestors, nearest first. -/
def lineage (t : Ty) : List Ty := t :: t.ancestors.map (·.1)

theorem depthFirst_eq (t : Ty) : t.depthFirst = t :: t.supers.flatMap depthFirst := by
  rw [depthFirst]
  simp

theorem mem_depthFirst_iff : v ∈ t.depthFirst ↔ v = t ∨ ∃ u ∈ t.supers, v ∈ u.depthFirst := by
  rw [depthFirst_eq, List.mem_cons, List.mem_flatMap]

theorem self_mem_depthFirst (t : Ty) : t ∈ t.depthFirst := mem_depthFirst_iff.2 (.inl rfl)

theorem mem_depthFirst_of_super (hu : u ∈ t.supers) (hv : v ∈ u.depthFirst) : v ∈ t.depthFirst :=
  mem_depthFirst_iff.2 (.inr ⟨u, hu, hv⟩)

theorem exists_climbs_of_mem_depthFirst (h : u ∈ t.depthFirst) : ∃ n, Climbs u.key t n := by
  induction t using inductionOnSupers with
  | step t ih =>
    rcases mem_depthFirst_iff.1 h with rfl | ⟨super, hsuper, hu⟩
    · exact ⟨0, .here rfl⟩
    · obtain ⟨n, hclimbs⟩ := ih super hsuper hu
      exact ⟨n + 1, .step hsuper hclimbs⟩

/-- The walk by levels collects types from above those that wait. -/
theorem mem_depthFirst_of_mem_collect {queue found : Queue} {entry : Ty × Nat}
    (h : entry ∈ collect queue found) :
    entry ∈ found ∨ ∃ waiting ∈ queue, entry.1 ∈ waiting.1.depthFirst := by
  fun_induction collect queue found with
  | case1 found => exact .inl h
  | case2 t level queue found _ ih =>
    refine (ih h).imp_right ?_
    rintro ⟨waiting, hwaiting, hmem⟩
    exact ⟨waiting, List.mem_cons_of_mem _ hwaiting, hmem⟩
  | case3 t level queue found _ ih =>
    rcases ih h with hfound | ⟨waiting, hwaiting, hmem⟩
    · rcases List.mem_append.1 hfound with hfound | hfound
      · exact .inl hfound
      · rw [List.mem_singleton.1 hfound]
        exact .inr ⟨_, List.mem_cons_self, self_mem_depthFirst t⟩
    · rcases List.mem_append.1 hwaiting with hwaiting | hnext
      · exact .inr ⟨waiting, List.mem_cons_of_mem _ hwaiting, hmem⟩
      · obtain ⟨super, hsuper, rfl⟩ := List.mem_map.1 hnext
        exact .inr ⟨_, List.mem_cons_self, mem_depthFirst_of_super hsuper hmem⟩

theorem lineage_subset_depthFirst (t : Ty) : t.lineage ⊆ t.depthFirst := by
  intro u hu
  rcases List.mem_cons.1 hu with rfl | hu
  · exact self_mem_depthFirst u
  · obtain ⟨entry, hentry, rfl⟩ := List.mem_map.1 hu
    rcases mem_depthFirst_of_mem_collect hentry with hnone | ⟨waiting, hwaiting, hmem⟩
    · cases hnone
    · obtain ⟨super, hsuper, rfl⟩ := List.mem_map.1 hwaiting
      exact mem_depthFirst_of_super hsuper hmem

namespace Hierarchy

variable (hO : Hierarchy O)

include hO

theorem of_mem_depthFirst (ht : O t) (hu : u ∈ t.depthFirst) : O u := by
  induction t using inductionOnSupers with
  | step t ih =>
    rcases mem_depthFirst_iff.1 hu with rfl | ⟨super, hsuper, hu⟩
    · exact ht
    · exact ih super hsuper (hO.super ht hsuper) hu

/-- Every key met depth first is met level by level. -/
theorem exists_mem_lineage (ht : O t) (hu : u ∈ t.depthFirst) : ∃ v ∈ t.lineage, v.key = u.key := by
  by_cases hkey : u.key = t.key
  · exact ⟨t, List.mem_cons_self, hkey.symm⟩
  · have hlisted : u.key ∈ keysOf t.ancestors :=
      (hO.mem_keysOf_ancestors_iff ht u.key).2 ⟨hkey, exists_climbs_of_mem_depthFirst hu⟩
    obtain ⟨entry, hentry, hsame⟩ := List.mem_map.1 hlisted
    exact ⟨entry.1, List.mem_cons_of_mem _ (List.mem_map_of_mem hentry), hsame⟩

/-- Both ways up find a type with a property that goes by the key, or neither does. -/
theorem exists_mem_depthFirst_iff (ht : O t) {P : Ty → Prop}
    (hP : ∀ {u v : Ty}, O u → O v → u.key = v.key → P u → P v) :
    (∃ u ∈ t.depthFirst, P u) ↔ ∃ u ∈ t.lineage, P u := by
  constructor
  · rintro ⟨u, hu, hPu⟩
    obtain ⟨v, hv, hkey⟩ := hO.exists_mem_lineage ht hu
    have hOv := hO.of_mem_depthFirst ht (lineage_subset_depthFirst t hv)
    exact ⟨v, hv, hP (hO.of_mem_depthFirst ht hu) hOv hkey.symm hPu⟩
  · rintro ⟨u, hu, hPu⟩
    exact ⟨u, lineage_subset_depthFirst t hu, hPu⟩

end Hierarchy

end Ty

namespace Declarations

variable {d : Declarations} {t u : Ty} {name : String}

def ownMethods (d : Declarations) (t : Ty) : List Method := (d.membersOf t).methods

/-- Methods of a name that a type declares. -/
def ownMethodsNamed (d : Declarations) (t : Ty) (name : String) : List Method :=
  (d.ownMethods t).filter (·.name = name)

/-- Methods of a name that a type and those above it declare, as they are met depth first. -/
def declaredMethods (d : Declarations) (t : Ty) (name : String) : List Method :=
  t.depthFirst.flatMap (d.ownMethodsNamed · name)

theorem field?_eq (d : Declarations) (t : Ty) (name : String) :
    d.field? t name =
      (Assoc.get? (d.ownFields t) name).or (t.supers.findSome? (d.field? · name)) := by
  rw [field?]
  cases Assoc.get? (d.ownFields t) name with
  | some field => rfl
  | none => simp

theorem methodsNamed_eq (d : Declarations) (t : Ty) (name : String) :
    d.methodsNamed t name =
      t.supers.foldl (fun methods u => addInherited methods (d.methodsNamed u name))
        (d.ownMethodsNamed t name) := by
  rw [methodsNamed]
  simp [ownMethodsNamed, ownMethods]

theorem findSome?_field? {us : List Ty}
    (h : ∀ u ∈ us, d.field? u name =
      u.depthFirst.findSome? fun v => Assoc.get? (d.ownFields v) name) :
    us.findSome? (d.field? · name) =
      (us.flatMap Ty.depthFirst).findSome? fun v => Assoc.get? (d.ownFields v) name := by
  induction us with
  | nil => rfl
  | cons u rest ih =>
    rw [List.forall_mem_cons] at h
    rw [List.findSome?_cons, List.flatMap_cons, List.findSome?_append, h.1, ih h.2]
    cases u.depthFirst.findSome? fun v => Assoc.get? (d.ownFields v) name <;> rfl

/-- The field of a name is the one of the first type that declares it. -/
theorem field?_eq_findSome? (d : Declarations) (t : Ty) (name : String) :
    d.field? t name = t.depthFirst.findSome? fun u => Assoc.get? (d.ownFields u) name := by
  induction t using Ty.inductionOnSupers with
  | step t ih =>
    rw [field?_eq, Ty.depthFirst_eq, List.findSome?_cons, findSome?_field? ih]
    cases Assoc.get? (d.ownFields t) name <;> rfl

theorem addInherited_firstsBy (methods inherited : List Method) :
    addInherited (firstsBy Method.key methods) inherited =
      firstsBy Method.key (methods ++ inherited) := by
  induction inherited using List.reverseRecOn with
  | nil =>
    rw [List.append_nil]
    rfl
  | append_singleton inherited m ih =>
    rw [← List.append_assoc, firstsBy_concat, ← ih, addInherited, List.foldl_append]
    rfl

theorem foldl_addInherited {us : List Ty} (methods : List Method)
    (h : ∀ u ∈ us, d.methodsNamed u name = firstsBy Method.key (d.declaredMethods u name)) :
    us.foldl (fun methods u => addInherited methods (d.methodsNamed u name))
        (firstsBy Method.key methods) =
      firstsBy Method.key (methods ++ us.flatMap (d.declaredMethods · name)) := by
  induction us generalizing methods with
  | nil =>
    rw [List.flatMap_nil, List.append_nil]
    rfl
  | cons u rest ih =>
    rw [List.forall_mem_cons] at h
    rw [List.foldl_cons, h.1, addInherited_firstsBy, firstsBy_append_firstsBy, ih _ h.2,
      List.append_assoc, List.flatMap_cons]

theorem declaredMethods_eq (d : Declarations) (t : Ty) (name : String) :
    d.declaredMethods t name =
      d.ownMethodsNamed t name ++ t.supers.flatMap (d.declaredMethods · name) := by
  rw [declaredMethods, Ty.depthFirst_eq, List.flatMap_cons, List.flatMap_assoc]
  rfl

theorem nodup_ownMethodsNamed (h : ((d.ownMethods t).map Method.key).Nodup) (name : String) :
    ((d.ownMethodsNamed t name).map Method.key).Nodup :=
  h.sublist (List.filter_sublist.map Method.key)

/-- The methods of a name are the first ones of their keys. -/
theorem methodsNamed_eq_firstsBy
    (hown : ∀ u ∈ t.depthFirst, ((d.ownMethods u).map Method.key).Nodup) :
    d.methodsNamed t name = firstsBy Method.key (d.declaredMethods t name) := by
  induction t using Ty.inductionOnSupers with
  | step t ih =>
    have hsupers : ∀ u ∈ t.supers, d.methodsNamed u name =
        firstsBy Method.key (d.declaredMethods u name) := fun u hu =>
      ih u hu fun v hv => hown v (Ty.mem_depthFirst_of_super hu hv)
    have hfirst := nodup_ownMethodsNamed (hown t t.self_mem_depthFirst) name
    rw [methodsNamed_eq, declaredMethods_eq, ← foldl_addInherited _ hsupers,
      firstsBy_eq_self Method.key hfirst]

/-- A hierarchy in which types of one key declare fields of the same names and methods of the same
keys, and no type declares two methods of one key. -/
structure Uniform (d : Declarations) (O : Ty → Prop) : Prop extends Ty.Hierarchy O where
  fields_alike : ∀ {t u : Ty}, O t → O u → t.key = u.key →
    (d.ownFields t).map (·.1) = (d.ownFields u).map (·.1)
  methods_alike : ∀ {t u : Ty}, O t → O u → t.key = u.key →
    (d.ownMethods t).map Method.key = (d.ownMethods u).map Method.key
  methods_distinct : ∀ {t : Ty}, O t → ((d.ownMethods t).map Method.key).Nodup

/-- The type declares a field of the name. -/
def DeclaresField (d : Declarations) (name : String) (t : Ty) : Prop :=
  (Assoc.get? (d.ownFields t) name).isSome

/-- The type declares a method of the name and key. -/
def DeclaresMethod (d : Declarations) (name : String) (key : MethodKey) (t : Ty) : Prop :=
  ∃ m ∈ d.ownMethods t, m.name = name ∧ m.key = key

instance : Decidable (d.DeclaresField name t) := inferInstanceAs (Decidable (_ = true))

instance (key : MethodKey) : Decidable (d.DeclaresMethod name key t) :=
  inferInstanceAs (Decidable (∃ m ∈ d.ownMethods t, m.name = name ∧ m.key = key))

theorem declaresField_iff : d.DeclaresField name t ↔ name ∈ (d.ownFields t).map (·.1) := by
  rw [DeclaresField, ← Assoc.contains_eq_isSome, Assoc.contains, List.any_eq_true, List.mem_map]
  simp only [decide_eq_true_eq]

theorem mem_keys_declaredMethods {key : MethodKey} :
    key ∈ (d.declaredMethods t name).map Method.key ↔
      ∃ u ∈ t.depthFirst, d.DeclaresMethod name key u := by
  simp only [declaredMethods, ownMethodsNamed, DeclaresMethod, List.mem_map, List.mem_flatMap,
    List.mem_filter, decide_eq_true_eq]
  constructor
  · rintro ⟨m, ⟨u, hu, hm, hname⟩, hkey⟩
    exact ⟨u, hu, m, hm, hname, hkey⟩
  · rintro ⟨u, hu, m, hm, hname, hkey⟩
    exact ⟨m, ⟨u, hu, hm, hname⟩, hkey⟩

namespace Uniform

variable {O : Ty → Prop} (hd : d.Uniform O)

include hd

theorem declaresField_congr (ht : O t) (hu : O u) (hkey : t.key = u.key)
    (h : d.DeclaresField name t) : d.DeclaresField name u := by
  rw [declaresField_iff, ← hd.fields_alike ht hu hkey]
  exact declaresField_iff.1 h

theorem declaresMethod_congr {key : MethodKey} (ht : O t) (hu : O u) (hkey : t.key = u.key)
    (h : d.DeclaresMethod name key t) : d.DeclaresMethod name key u := by
  obtain ⟨m, hm, hname, rfl⟩ := h
  have hmem : m.key ∈ (d.ownMethods u).map Method.key := by
    rw [← hd.methods_alike ht hu hkey]
    exact List.mem_map_of_mem hm
  obtain ⟨other, hother, hsame⟩ := List.mem_map.1 hmem
  exact ⟨other, hother, (congrArg MethodKey.name hsame).trans hname, hsame⟩

theorem methodsNamed_eq_firstsBy (ht : O t) :
    d.methodsNamed t name = firstsBy Method.key (d.declaredMethods t name) :=
  Declarations.methodsNamed_eq_firstsBy fun _ hu =>
    hd.methods_distinct (hd.of_mem_depthFirst ht hu)

theorem isSome_field?_iff (ht : O t) :
    (d.field? t name).isSome ↔ ∃ u ∈ t.lineage, d.DeclaresField name u := by
  rw [field?_eq_findSome?, List.findSome?_isSome_iff]
  exact hd.exists_mem_depthFirst_iff ht hd.declaresField_congr

theorem mem_keys_methodsNamed_iff {key : MethodKey} (ht : O t) :
    key ∈ (d.methodsNamed t name).map Method.key ↔
      ∃ u ∈ t.lineage, d.DeclaresMethod name key u := by
  rw [hd.methodsNamed_eq_firstsBy ht, mem_map_firstsBy, mem_keys_declaredMethods]
  exact hd.exists_mem_depthFirst_iff ht hd.declaresMethod_congr

/-- Own methods come first, in the order of their declarations. -/
theorem ownMethodsNamed_prefix (ht : O t) :
    d.ownMethodsNamed t name <+: d.methodsNamed t name := by
  have hown := nodup_ownMethodsNamed (hd.methods_distinct ht) name
  calc d.ownMethodsNamed t name
      = firstsBy Method.key (d.ownMethodsNamed t name) := (firstsBy_eq_self Method.key hown).symm
    _ <+: firstsBy Method.key (d.declaredMethods t name) := by
        rw [declaredMethods_eq]
        exact firstsBy_prefix Method.key _ _
    _ = d.methodsNamed t name := (hd.methodsNamed_eq_firstsBy ht).symm

end Uniform

end Declarations

/-- Lookup finds the members of a type and its ancestors, and finds them once.  A field of a name is
found just if one of these types declares it, the own one if there is one; the methods of a name
have different keys, namely those that these types declare under the name, and the own ones come
first in the order of their declarations. -/
theorem inherited_members_complete {d : Declarations} {O : Ty → Prop} (hd : d.Uniform O) {t : Ty}
    (ht : O t) (name : String) :
    ((d.field? t name).isSome ↔ ∃ u ∈ t.lineage, d.DeclaresField name u) ∧
    (∀ field, Assoc.get? (d.ownFields t) name = some field → d.field? t name = some field) ∧
    ((d.methodsNamed t name).map Method.key).Nodup ∧
    d.ownMethodsNamed t name <+: d.methodsNamed t name ∧
    ∀ key, key ∈ (d.methodsNamed t name).map Method.key ↔
      ∃ u ∈ t.lineage, d.DeclaresMethod name key u := by
  refine ⟨hd.isSome_field?_iff ht, fun field hfield => ?_, ?_, hd.ownMethodsNamed_prefix ht,
    fun key => hd.mem_keys_methodsNamed_iff ht⟩
  · rw [Declarations.field?_eq, hfield]
    rfl
  · rw [hd.methodsNamed_eq_firstsBy ht]
    exact nodup_map_firstsBy Method.key _

namespace Zoo

open Ty.Zoo

def call (id : Nat) (name : String) (params : List Ty) (owner : Ty) : Method :=
  .native ⟨id, name, params, .void, owner.name, .member, none⟩ fun _ _ => .ok .null

/-- What animals have, whichever declaration of them is read. -/
def ofAnimals (owner : Ty) : Members where
  fields := [("name", .plain "name" .string owner.name)]
  methods := [call 0 "play" [] owner, call 1 "sleep" [] owner]
  constructors := []

def members : Declarations where
  table :=
    [(.declared 0, ofAnimals animal),
      (.declared 1, ofAnimals creature),
      (.declared 2, ⟨[], [call 2 "play" [.int] pet, call 3 "play" [.string] pet], []⟩),
      (.declared 3, ⟨[("age", .plain "age" .int dog.name)], [call 4 "play" [] dog], []⟩),
      (.declared 4, ⟨[("age", .plain "age" .int puppy.name)], [call 5 "play" [.int] puppy], []⟩)]

theorem uniform : members.Uniform (· ∈ types) where
  toHierarchy := hierarchy
  fields_alike := by
    have halike : ∀ t ∈ types, ∀ u ∈ types, t.key = u.key →
        (members.ownFields t).map (·.1) = (members.ownFields u).map (·.1) := by
      decide +kernel
    exact fun {t u} ht hu => halike t ht u hu
  methods_alike := by
    have halike : ∀ t ∈ types, ∀ u ∈ types, t.key = u.key →
        (members.ownMethods t).map Method.key = (members.ownMethods u).map Method.key := by
      decide +kernel
    exact fun {t u} ht hu => halike t ht u hu
  methods_distinct := by
    have hdistinct : ∀ t ∈ types, ((members.ownMethods t).map Method.key).Nodup := by
      decide +kernel
    exact fun {t} ht => hdistinct t ht

end Zoo

open Ty.Zoo Zoo in
/-- A puppy has its own way to play, which hides that of pets, and plays as a dog besides.  Its age
is its own; its name comes from the animals, to which three chains lead. -/
theorem inherited_members_complete_puppy :
    members.Uniform (· ∈ types) ∧ puppy ∈ types ∧
    puppy.lineage.map Ty.key = [puppy.key, dog.key, pet.key, animal.key] ∧
    puppy.depthFirst.map Ty.key =
      [puppy.key, dog.key, pet.key, animal.key, animal.key, pet.key, animal.key] ∧
    (members.field? puppy "name").isSome ∧ ¬(members.field? puppy "wings").isSome ∧
    members.field? puppy "age" = some (.plain "age" .int "Puppy") ∧
    ((members.methodsNamed puppy "play").map Method.key).Nodup ∧
    [call 5 "play" [.int] puppy] <+: members.methodsNamed puppy "play" ∧
    ⟨"play", [Ty.string.key]⟩ ∈ (members.methodsNamed puppy "play").map Method.key ∧
    ⟨"play", [Ty.boolean.key]⟩ ∉ (members.methodsNamed puppy "play").map Method.key := by
  have hpuppy : puppy ∈ types := List.mem_cons_self
  obtain ⟨hname, -⟩ := inherited_members_complete uniform hpuppy "name"
  obtain ⟨hwings, -⟩ := inherited_members_complete uniform hpuppy "wings"
  obtain ⟨-, hage, -⟩ := inherited_members_complete uniform hpuppy "age"
  obtain ⟨-, -, hdistinct, hown, hplay⟩ := inherited_members_complete uniform hpuppy "play"
  refine ⟨uniform, hpuppy, by decide +kernel, by decide +kernel, hname.2 (by decide +kernel),
    mt hwings.1 (by decide +kernel), hage _ rfl, hdistinct, hown, (hplay _).2 (by decide +kernel),
    mt (hplay _).1 (by decide +kernel)⟩

end RuleExpr

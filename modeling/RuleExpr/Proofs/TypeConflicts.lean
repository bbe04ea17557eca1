import RuleExpr.Binder.Context
import RuleExpr.Module.Datatype
import Mathlib.Data.List.Induction

/-!
# Conflicting Types

Two types of a key have to agree, whether a module declares them or sees them through its
dependencies.  An own type is compared with the other own types when it is added, and with the
types of the dependencies when these are imported.  A module imports anew only after something
that can change its imports, and adding a type does not count as such: a type that is added while
the imports are current is compared with none of the imported ones.

So whether a conflict is reported depends on the order of the edits.  The main statement says that
this is the only way in which it does: compiling a module reports every conflict between an own
type and an exported one, unless the own type came while the imports were current and nothing made
the module import again.
-/

namespace RuleExpr

/-- What is done to a module before it is compiled. -/
inductive Edit where
  | addType (t : Ty)
  | declareDatatype (name : String) (supers : List Ty) (fields : List (String × Ty))
  | addDependency (dependency : Dependency)
  | setFilter (filter : MethodFilter)
  | importDependencies
  | ensureImports
  | openContext

/-- A module with what it shares with others. -/
structure ModuleState where
  owner : RuleModule
  workspace : Workspace

/-- A type that cannot be added leaves the module as it is. -/
def RuleModule.orAfter (m : RuleModule) : Except ModuleError (Ty × RuleModule) → RuleModule
  | .ok (_, changed) => changed
  | .error _ => m

namespace Edit

def apply (s : ModuleState) : Edit → ModuleState
  | addType t => { s with owner := s.owner.orAfter (s.owner.addType s.workspace.declarations t) }
  | declareDatatype name supers fields =>
    let (result, w) := s.owner.declareDatatype s.workspace name supers fields
    ⟨s.owner.orAfter result, w⟩
  | addDependency dependency => { s with owner := s.owner.addDependency dependency }
  | setFilter filter => { s with owner := s.owner.setFilter filter }
  | importDependencies =>
    let (m, w) := s.owner.importDependencies s.workspace
    ⟨m, w⟩
  | ensureImports =>
    let (m, w) := s.owner.ensureImports s.workspace
    ⟨m, w⟩
  | openContext =>
    let context := BindState.start s.owner s.workspace
    ⟨context.owner, context.workspace⟩

/-- Whether imports that are current stay as they are. -/
def keepsImports : Edit → Bool
  | addDependency _ | setFilter _ | importDependencies => false
  | _ => true

end Edit

namespace ModuleState

def new (name ns : String) (space : Nat) (w : Workspace) : ModuleState := ⟨.empty name ns space, w⟩

/-- The edits one after the other. -/
def run (s : ModuleState) (edits : List Edit) : ModuleState := edits.foldl Edit.apply s

theorem run_concat (s : ModuleState) (edits : List Edit) (edit : Edit) :
    s.run (edits ++ [edit]) = edit.apply (s.run edits) := by
  rw [run, List.foldl_append]
  rfl

end ModuleState

def Dependency.exportedTypes (d : Dependency) : List Ty :=
  Assoc.values (d.compiled.source.types ++ d.compiled.source.importedTypes)

namespace Workspace

/-- The type is no declaration that is still to come. -/
def Knows (w : Workspace) (t : Ty) : Prop := ∀ number, t.id? = some (.declared number) →
  number < w.nextType

/-- Types may have been declared. -/
structure Extends (w w' : Workspace) : Prop where
  nextType : w.nextType ≤ w'.nextType
  members : ∀ t, w.Knows t → w'.declarations.membersOf t = w.declarations.membersOf t

variable {w w' : Workspace} {t u : Ty}

/-- No types have been declared. -/
structure SameTypes (w w' : Workspace) : Prop where
  nextType : w'.nextType = w.nextType
  declarations : w'.declarations = w.declarations

theorem SameTypes.refl (w : Workspace) : w.SameTypes w := ⟨rfl, rfl⟩

theorem SameTypes.trans {w₁ : Workspace} (h : w.SameTypes w₁) (h' : w₁.SameTypes w') :
    w.SameTypes w' :=
  ⟨h'.nextType.trans h.nextType, h'.declarations.trans h.declarations⟩

theorem SameTypes.extends (h : w.SameTypes w') : w.Extends w' :=
  ⟨Nat.le_of_eq h.nextType.symm, fun t _ => by rw [h.declarations]⟩

theorem Extends.knows (h : w.Extends w') (ht : w.Knows t) : w'.Knows t :=
  fun number hnumber => Nat.lt_of_lt_of_le (ht number hnumber) h.nextType

/-- Later declarations do not change the structure of a type. -/
theorem Extends.structurallyEqual (h : w.Extends w') (ht : w.Knows t) (hu : w.Knows u) :
    w'.declarations.structurallyEqual t u = w.declarations.structurallyEqual t u := by
  unfold Declarations.structurallyEqual Declarations.ownFields
  rw [h.members t ht, h.members u hu]

/-- Members are defined for a new type only. -/
theorem Extends.of_define {typeName : String} {members : Members}
    (hnext : w'.nextType = w.nextType + 1)
    (hdefine : w.declarations.define (.declared w.nextType) typeName members =
      .ok w'.declarations) : w.Extends w' := by
  refine ⟨by rw [hnext]; exact Nat.le_succ _, fun u hu => ?_⟩
  rw [Declarations.define] at hdefine
  split at hdefine
  · cases hdefine
  rw [← Except.ok.inj hdefine]
  unfold Declarations.membersOf
  cases huid : u.id? with
  | none => rfl
  | some id =>
    have hother : ¬TypeId.declared w.nextType = id := by
      rintro rfl
      exact Nat.lt_irrefl _ (hu _ huid)
    simp [Assoc.get?_append, Assoc.get?_cons, hother]

end Workspace

/-- The types that an edit brings in exist. -/
def Edit.Known (w : Workspace) : Edit → Prop
  | addType t => w.Knows t
  | addDependency d => ∀ t ∈ d.exportedTypes, w.Knows t
  | _ => True

/-- Every edit brings in types that exist by then. -/
def ModuleState.Known (s : ModuleState) : List Edit → Prop
  | [] => True
  | edit :: rest => edit.Known s.workspace ∧ (edit.apply s).Known rest

theorem ModuleState.known_concat {s : ModuleState} {edits : List Edit} {edit : Edit} :
    s.Known (edits ++ [edit]) ↔ s.Known edits ∧ edit.Known (s.run edits).workspace := by
  induction edits generalizing s with
  | nil => simp [Known, run]
  | cons first rest ih => simp [Known, run, ih, and_assoc]

/-- An own type and a type that a dependency without errors exports have the same key and another
structure. -/
structure ModuleState.Conflict (s : ModuleState) (d : Dependency) (t u : Ty) : Prop where
  own : t ∈ Assoc.values s.owner.types
  depends : d ∈ s.owner.dependencies
  sound : d.hasErrors = false
  exported : u ∈ d.exportedTypes
  key_eq : t.key = u.key
  differ : s.workspace.declarations.structurallyEqual t u = false

/-- A type of the key is added while the imports are current, and nothing makes the module import
again. -/
def ModuleState.AddedLate (s : ModuleState) (edits : List Edit) (key : TypeKey) : Prop :=
  ∃ before edit after, edits = before ++ edit :: after ∧
    (s.run before).owner.importsCurrent = true ∧
    Assoc.get? (s.run before).owner.types key = none ∧
    (Assoc.get? (s.run (before ++ [edit])).owner.types key).isSome = true ∧
    ∀ later ∈ after, later.keepsImports = true

namespace Imports

variable {d : Declarations} {own : TypeTable} {dependency : String} {i : Imports} {t u : Ty}

theorem addType_errors (h : i.errors ≠ []) (u : Ty) :
    (addType d own dependency i u).errors ≠ [] := by
  unfold addType
  split
  · split
    · exact h
    · exact List.append_ne_nil_of_right_ne_nil _ (List.cons_ne_nil _ _)
  · exact h

/-- A type that differs from the own one of its key is an error. -/
theorem addType_conflict (hown : Assoc.get? own u.key = some t)
    (hdiffer : d.structurallyEqual t u = false) : (addType d own dependency i u).errors ≠ [] := by
  rw [addType, hown]
  simp [hdiffer, addError]

theorem addTypes_conflict {types : List Ty} (hu : u ∈ types)
    (hown : Assoc.get? own u.key = some t) (hdiffer : d.structurallyEqual t u = false) :
    (types.foldl (addType d own dependency) i).errors ≠ [] := by
  obtain ⟨before, after, rfl⟩ := List.append_of_mem hu
  rw [List.foldl_append, List.foldl_cons]
  apply List.foldlRecOn (motive := fun i : Imports => i.errors ≠ [])
  · exact addType_conflict hown hdiffer
  · exact fun j hj v _ => addType_errors hj v

theorem offerMethod_errors {filter : Option MethodFilter} {state : Imports × Workspace}
    (h : state.1.errors ≠ []) (method : Method) :
    (offerMethod filter dependency state method).1.errors ≠ [] := by
  unfold offerMethod
  split
  · exact h
  · split
    · unfold addMethod
      dsimp only
      split <;> exact h
    · exact h
    · exact List.append_ne_nil_of_right_ne_nil _ (List.cons_ne_nil _ _)

theorem addDependency_errors {filter : Option MethodFilter} {state : Imports × Workspace}
    (h : state.1.errors ≠ []) (d : Dependency) :
    (addDependency own filter state d).1.errors ≠ [] := by
  unfold addDependency
  dsimp only
  split
  · exact h
  · apply List.foldlRecOn (motive := fun state : Imports × Workspace => state.1.errors ≠ [])
    · apply List.foldlRecOn (motive := fun i : Imports => i.errors ≠ [])
      · exact h
      · exact fun j hj v _ => addType_errors hj v
    · exact fun state hstate method _ => offerMethod_errors hstate method

theorem addDependency_conflict {filter : Option MethodFilter} {state : Imports × Workspace}
    {d : Dependency} (hsound : d.hasErrors = false) (hu : u ∈ d.exportedTypes)
    (hown : Assoc.get? own u.key = some t)
    (hdiffer : state.2.declarations.structurallyEqual t u = false) :
    (addDependency own filter state d).1.errors ≠ [] := by
  unfold addDependency
  dsimp only
  rw [hsound, if_neg Bool.false_ne_true]
  apply List.foldlRecOn (motive := fun state : Imports × Workspace => state.1.errors ≠ [])
  · exact addTypes_conflict hu hown hdiffer
  · exact fun state hstate method _ => offerMethod_errors hstate method

/-- Importing records where methods come from and nothing else. -/
theorem offerMethod_sameTypes (filter : Option MethodFilter) (dependency : String)
    (state : Imports × Workspace) (method : Method) :
    state.2.SameTypes (offerMethod filter dependency state method).2 := by
  unfold offerMethod
  split
  · exact .refl _
  · split
    · unfold addMethod Workspace.tagOrigin
      dsimp only
      split
      · exact .refl _
      · split <;> exact ⟨rfl, rfl⟩
    · exact .refl _
    · exact .refl _

theorem addDependency_sameTypes (own : TypeTable) (filter : Option MethodFilter)
    (state : Imports × Workspace) (d : Dependency) :
    state.2.SameTypes (addDependency own filter state d).2 := by
  unfold addDependency
  dsimp only
  split
  · exact .refl _
  · apply List.foldlRecOn (motive := fun after : Imports × Workspace => state.2.SameTypes after.2)
    · exact .refl _
    · exact fun after hafter method _ => hafter.trans (offerMethod_sameTypes _ _ after method)

theorem addDependencies_sameTypes (own : TypeTable) (filter : Option MethodFilter)
    (state : Imports × Workspace) (dependencies : List Dependency) :
    state.2.SameTypes (dependencies.foldl (addDependency own filter) state).2 := by
  apply List.foldlRecOn (motive := fun after : Imports × Workspace => state.2.SameTypes after.2)
  · exact .refl _
  · exact fun after hafter d _ => hafter.trans (addDependency_sameTypes own filter after d)

end Imports

namespace ModuleState

/-- Own types are found by their keys. -/
def Keyed (s : ModuleState) : Prop :=
  ∀ t ∈ Assoc.values s.owner.types, Assoc.get? s.owner.types t.key = some t

variable {s start : ModuleState} {d : Dependency} {t u : Ty}

theorem importDependencies_sameTypes (m : RuleModule) (w : Workspace) :
    w.SameTypes (m.importDependencies w).2 :=
  Imports.addDependencies_sameTypes m.types m.filter (.empty, w) m.dependencies

/-- A conflict is found when the dependencies are imported. -/
theorem Conflict.importErrors (h : s.Conflict d t u) (hkeyed : s.Keyed) :
    (s.owner.importDependencies s.workspace).1.importErrors ≠ [] := by
  obtain ⟨before, after, hsplit⟩ := List.append_of_mem h.depends
  have hown : Assoc.get? s.owner.types u.key = some t := h.key_eq ▸ hkeyed t h.own
  change (s.owner.dependencies.foldl (Imports.addDependency s.owner.types s.owner.filter)
    (.empty, s.workspace)).1.errors ≠ []
  rw [hsplit, List.foldl_append, List.foldl_cons]
  apply List.foldlRecOn (motive := fun state : Imports × Workspace => state.1.errors ≠ [])
  · apply Imports.addDependency_conflict h.sound h.exported hown
    rw [(Imports.addDependencies_sameTypes _ _ (.empty, s.workspace) before).declarations]
    exact h.differ
  · exact fun state hstate other _ => Imports.addDependency_errors hstate other

/-- What an edit may do. -/
inductive Step (edit : Edit) : ModuleState → ModuleState → Prop
  | keeps {m : RuleModule} {w w' : Workspace} (hedit : edit.keepsImports = true)
      (hw : w.Extends w') : Step edit ⟨m, w⟩ ⟨m, w'⟩
  | adds {m : RuleModule} {w w' : Workspace} {t : Ty} (hedit : edit.keepsImports = true)
      (hw : w.Extends w') (hnew : Assoc.get? m.types t.key = none) (ht : w'.Knows t) :
      Step edit ⟨m, w⟩ ⟨{ m with types := m.types ++ [(t.key, t)] }, w'⟩
  | depends {m : RuleModule} {w : Workspace} {d : Dependency}
      (hd : ∀ t ∈ d.exportedTypes, w.Knows t) : Step edit ⟨m, w⟩ ⟨m.addDependency d, w⟩
  | filters {m : RuleModule} {w : Workspace} (filter : MethodFilter) :
      Step edit ⟨m, w⟩ ⟨m.setFilter filter, w⟩
  | imports (m : RuleModule) (w : Workspace) :
      Step edit ⟨m, w⟩ ⟨(m.importDependencies w).1, (m.importDependencies w).2⟩

theorem step_addType {edit : Edit} (m : RuleModule) {w w' : Workspace}
    (hedit : edit.keepsImports = true) (hw : w.Extends w') (ht : w'.Knows t) :
    Step edit ⟨m, w⟩ ⟨m.orAfter (m.addType w'.declarations t), w'⟩ := by
  unfold RuleModule.addType
  split
  · split <;> exact .keeps hedit hw
  case h_2 hnew => exact .adds hedit hw hnew ht

theorem step_ensureImports {edit : Edit} (hedit : edit.keepsImports = true) (m : RuleModule)
    (w : Workspace) : Step edit ⟨m, w⟩ ⟨(m.ensureImports w).1, (m.ensureImports w).2⟩ := by
  unfold RuleModule.ensureImports
  split
  · exact .keeps hedit (Workspace.SameTypes.refl w).extends
  · exact .imports m w

theorem step_declareDatatype {edit : Edit} (hedit : edit.keepsImports = true) (m : RuleModule)
    (w : Workspace) (name : String) (supers : List Ty) (fields : List (String × Ty)) :
    Step edit ⟨m, w⟩ ⟨m.orAfter (m.declareDatatype w name supers fields).1,
      (m.declareDatatype w name supers fields).2⟩ := by
  unfold RuleModule.declareDatatype
  simp only [Workspace.freshType, Workspace.freshMethod]
  split
  · exact .keeps hedit ⟨Nat.le_succ _, fun _ _ => rfl⟩
  case h_2 declarations hdefine =>
    let w' : Workspace := { w with
      nextType := w.nextType + 1
      nextMethod := w.nextMethod + 1 + 1
      declarations }
    have hw : w.Extends w' := .of_define rfl hdefine
    have ht : w'.Knows (.record w.nextType ⟨m.ns, name⟩ supers) := by
      rintro number ⟨⟩
      exact Nat.lt_succ_self _
    have hstep := step_addType m hedit hw ht
    exact hstep

theorem step_apply (s : ModuleState) (edit : Edit) (h : edit.Known s.workspace) :
    Step edit s (edit.apply s) := by
  obtain ⟨m, w⟩ := s
  cases edit with
  | addType t => exact step_addType m rfl (Workspace.SameTypes.refl w).extends h
  | declareDatatype name supers fields => exact step_declareDatatype rfl m w name supers fields
  | addDependency d => exact .depends h
  | setFilter filter => exact .filters filter
  | importDependencies => exact .imports m w
  | ensureImports => exact step_ensureImports rfl m w
  | openContext => exact step_ensureImports rfl m w

/-! ## Late types -/

variable {edits : List Edit} {edit : Edit} {key : TypeKey}

theorem AddedLate.concat (h : start.AddedLate edits key) (hedit : edit.keepsImports = true) :
    start.AddedLate (edits ++ [edit]) key := by
  obtain ⟨before, adding, after, rfl, hcurrent, hnew, hadded, hafter⟩ := h
  refine ⟨before, adding, after ++ [edit], by simp, hcurrent, hnew, hadded, ?_⟩
  intro later hlater
  rcases List.mem_append.1 hlater with hlater | hlast
  · exact hafter later hlater
  · rwa [List.mem_singleton.1 hlast]

theorem AddedLate.now (hcurrent : (start.run edits).owner.importsCurrent = true)
    (hnew : Assoc.get? (start.run edits).owner.types key = none)
    (hadded : (Assoc.get? (start.run (edits ++ [edit])).owner.types key).isSome = true) :
    start.AddedLate (edits ++ [edit]) key :=
  ⟨edits, edit, [], rfl, hcurrent, hnew, hadded, fun _ h => nomatch h⟩

/-- What holds of a module after `edits`: the imports, if they are current, have told of every
conflict with an own type that was not added late. -/
structure Tracked (start : ModuleState) (edits : List Edit) (s : ModuleState) : Prop where
  keyed : s.Keyed
  ownKnown : ∀ t ∈ Assoc.values s.owner.types, s.workspace.Knows t
  exportsKnown : ∀ d ∈ s.owner.dependencies, ∀ t ∈ d.exportedTypes, s.workspace.Knows t
  checked : s.owner.importsCurrent = true → ∀ d t u, s.Conflict d t u →
    s.owner.importErrors ≠ [] ∨ start.AddedLate edits t.key

theorem tracked_new (name ns : String) (space : Nat) (w : Workspace) :
    Tracked (new name ns space w) [] (new name ns space w) where
  keyed := fun _ ht => nomatch ht
  ownKnown := fun _ ht => nomatch ht
  exportsKnown := fun _ hd => nomatch hd
  checked := fun hcurrent => nomatch hcurrent

/-- A conflict with a type that was there is one from before, since no type has changed. -/
theorem Conflict.before {s' : ModuleState} (hc : s'.Conflict d t u) (h : Tracked start edits s)
    (hw : s.workspace.Extends s'.workspace) (hown : t ∈ Assoc.values s.owner.types)
    (hdependencies : s'.owner.dependencies = s.owner.dependencies) : s.Conflict d t u := by
  have hd : d ∈ s.owner.dependencies := hdependencies ▸ hc.depends
  have hdiffer := hc.differ
  rw [hw.structurallyEqual (h.ownKnown t hown) (h.exportsKnown d hd u hc.exported)] at hdiffer
  exact ⟨hown, hd, hc.sound, hc.exported, hc.key_eq, hdiffer⟩

theorem mem_values_concat {types : TypeTable} {entry : TypeKey × Ty} :
    t ∈ Assoc.values (types ++ [entry]) ↔ t ∈ Assoc.values types ∨ t = entry.2 := by
  simp [Assoc.values]

/-- A new type is found, and the others are found as before. -/
theorem get?_concat {types : TypeTable} {new : Ty} (hnew : Assoc.get? types new.key = none)
    (hkeyed : ∀ t ∈ Assoc.values types, Assoc.get? types t.key = some t) :
    ∀ t ∈ Assoc.values (types ++ [(new.key, new)]),
      Assoc.get? (types ++ [(new.key, new)]) t.key = some t := by
  intro t ht
  rw [Assoc.get?_append]
  rcases mem_values_concat.1 ht with hold | rfl
  · rw [hkeyed t hold]
    rfl
  · rw [hnew, Assoc.get?_cons, if_pos rfl]
    rfl

theorem Tracked.step {s' : ModuleState} (h : Tracked start edits s) (hs : start.run edits = s)
    (hs' : start.run (edits ++ [edit]) = s') (hstep : Step edit s s') :
    Tracked start (edits ++ [edit]) s' := by
  cases hstep with
  | @keeps m w w' hedit hw =>
    refine ⟨h.keyed, fun t ht => hw.knows (h.ownKnown t ht),
      fun d hd t ht => hw.knows (h.exportsKnown d hd t ht), ?_⟩
    -- Neither types nor exports are new, so a conflict now was one before.
    intro hcurrent d t u hc
    have hbefore := hc.before h hw hc.own rfl
    exact (h.checked hcurrent d t u hbefore).imp_right (·.concat hedit)
  | @adds m w w' new hedit hw hnew hknown =>
    have hkeyed := get?_concat hnew h.keyed
    refine ⟨hkeyed, ?_, fun d hd t ht => hw.knows (h.exportsKnown d hd t ht), ?_⟩
    · intro t ht
      rcases mem_values_concat.1 ht with hold | rfl
      · exact hw.knows (h.ownKnown t hold)
      · exact hknown
    · intro hcurrent d t u hc
      rcases mem_values_concat.1 hc.own with hold | rfl
      · have hbefore := hc.before h hw hold rfl
        exact (h.checked hcurrent d t u hbefore).imp_right (·.concat hedit)
      · -- The new type has not been compared with any import.
        right
        apply AddedLate.now
        · rwa [hs]
        · rwa [hs]
        · rw [hs', hkeyed _ hc.own]
          rfl
  | @depends m w d hd =>
    -- The imports are out of date from now on, and nothing is claimed of them.
    refine ⟨h.keyed, h.ownKnown, ?_, fun hcurrent => nomatch hcurrent⟩
    intro other hother
    rcases List.mem_append.1 hother with hother | hnew
    · exact h.exportsKnown other hother
    · rwa [List.mem_singleton.1 hnew]
  | filters filter => exact ⟨h.keyed, h.ownKnown, h.exportsKnown, fun hcurrent => nomatch hcurrent⟩
  | imports m w =>
    have hw := importDependencies_sameTypes m w
    refine ⟨h.keyed, fun t ht => hw.extends.knows (h.ownKnown t ht),
      fun d hd t ht => hw.extends.knows (h.exportsKnown d hd t ht), ?_⟩
    -- All exports are compared with the own types again.
    intro _ d t u hc
    have hbefore := hc.before h hw.extends hc.own rfl
    exact .inl (hbefore.importErrors h.keyed)

/-- After any edits of a new module. -/
theorem tracked_run {name ns : String} {space : Nat} {w : Workspace} {edits : List Edit}
    (h : (new name ns space w).Known edits) :
    Tracked (new name ns space w) edits ((new name ns space w).run edits) := by
  induction edits using List.reverseRecOn with
  | nil => exact tracked_new name ns space w
  | append_singleton edits edit ih =>
    obtain ⟨hedits, hedit⟩ := known_concat.1 h
    have hstep := step_apply _ edit hedit
    rw [← run_concat] at hstep
    exact (ih hedits).step rfl rfl hstep

end ModuleState

theorem RuleModule.compile_hasErrors {m : RuleModule} {w : Workspace}
    (h : (m.ensureImports w).1.importErrors ≠ []) : (m.compile w).1.hasErrors = true := by
  obtain ⟨error, herror⟩ := List.exists_mem_of_ne_nil _ h
  simp only [compile, CompiledModule.hasErrors, List.any_eq_true, List.mem_append]
  exact ⟨importDiagnostic error, .inl (.inr (List.mem_map_of_mem herror)), rfl⟩

open ModuleState in
/-- Whatever is done to a new module, compiling it reports errors if an own type and a type that a
dependency exports are in conflict, unless the own type was added while the imports were current
and the module did not import again. -/
theorem compile_reports_conflict {name ns : String} {space : Nat} {w : Workspace}
    {edits : List Edit} (hknown : (new name ns space w).Known edits) {d : Dependency} {t u : Ty}
    (hconflict : ((new name ns space w).run edits).Conflict d t u) :
    let s := (new name ns space w).run edits
    (s.owner.compile s.workspace).1.hasErrors = true ∨
      (new name ns space w).AddedLate edits t.key := by
  intro s
  have htracked : Tracked _ edits s := tracked_run hknown
  cases hcurrent : s.owner.importsCurrent with
  | true =>
    -- Nothing is imported again, so the last import must have reported the conflict.
    refine (htracked.checked hcurrent d t u hconflict).imp_left fun herrors => ?_
    apply RuleModule.compile_hasErrors
    rwa [RuleModule.ensureImports, if_pos hcurrent]
  | false =>
    left
    apply RuleModule.compile_hasErrors
    -- Compiling imports first, and compares all types then.
    rw [RuleModule.ensureImports, if_neg (Bool.eq_false_iff.1 hcurrent)]
    exact hconflict.importErrors htracked.keyed

namespace Clash

def first : Ty := .record 0 ⟨"rules", "Order"⟩ []

def second : Ty := .record 1 ⟨"rules", "Order"⟩ []

/-- The two classes have fields of different names. -/
def workspace : Workspace :=
  { Workspace.empty with
    declarations := ⟨[(.declared 0, .ofFields [.plain "total" .int "Order"]),
      (.declared 1, .ofFields [.plain "amount" .int "Order"])]⟩
    nextType := 2 }

def start (name : String) : ModuleState := .new name "rules" 0 workspace

/-- A compiled module that exports the first class. -/
def dependency : Dependency :=
  let s := (start "base").run [.addType first]
  ⟨"base", (s.owner.compile s.workspace).1⟩

theorem knows_first : workspace.Knows first := by
  rintro number ⟨⟩
  decide

theorem knows_second : workspace.Knows second := by
  rintro number ⟨⟩
  decide

theorem knows_exported : ∀ t ∈ dependency.exportedTypes, workspace.Knows t := by
  intro t ht
  rw [List.mem_singleton.1 ht]
  exact knows_first

end Clash

/-- A class that was added while the imports were current is compared after all, since a dependency
comes later. -/
theorem compile_reports_conflict_order :
    let edits := [.openContext, .addType Clash.second, .addDependency Clash.dependency]
    let s := (Clash.start "Rules").run edits
    (Clash.start "Rules").Known edits ∧ s.Conflict Clash.dependency Clash.second Clash.first ∧
      (s.owner.compile s.workspace).1.hasErrors = true := by
  intro edits s
  have hknown : (Clash.start "Rules").Known edits :=
    ⟨trivial, Clash.knows_second, Clash.knows_exported, trivial⟩
  have hconflict : s.Conflict Clash.dependency Clash.second Clash.first :=
    ⟨List.mem_cons_self, List.mem_cons_self, by decide +kernel, List.mem_cons_self, rfl,
      by decide +kernel⟩
  have hreports : (s.owner.compile s.workspace).1.hasErrors = true ∨
      (Clash.start "Rules").AddedLate edits Clash.second.key :=
    compile_reports_conflict hknown hconflict
  refine ⟨hknown, hconflict, hreports.resolve_right ?_⟩
  rintro ⟨before, edit, after, hsplit, hcurrent, hnew, -, hafter⟩
  match before with
  | [] => cases hcurrent
  | [_] =>
    simp only [edits, List.cons_append, List.nil_append, List.cons.injEq] at hsplit
    obtain ⟨-, -, rfl⟩ := hsplit
    exact absurd (hafter _ List.mem_cons_self) Bool.false_ne_true
  | [_, _] =>
    simp only [edits, List.cons_append, List.nil_append, List.cons.injEq] at hsplit
    obtain ⟨rfl, rfl, -⟩ := hsplit
    cases hnew
  | _ :: _ :: _ :: rest => simp [edits] at hsplit

/-- A class that is added after the dependencies were imported may differ from the one of its name
that they export. -/
theorem compile_accepts_conflict :
    let edits := [.addDependency Clash.dependency, .importDependencies, .addType Clash.second]
    let s := (Clash.start "Rules").run edits
    (Clash.start "Rules").Known edits ∧ s.Conflict Clash.dependency Clash.second Clash.first ∧
      (s.owner.compile s.workspace).1.hasErrors = false := by
  intro edits s
  refine ⟨⟨Clash.knows_exported, trivial, Clash.knows_second, trivial⟩, ?_, by decide +kernel⟩
  exact ⟨List.mem_cons_self, List.mem_cons_self, by decide +kernel, List.mem_cons_self, rfl,
    by decide +kernel⟩

end RuleExpr

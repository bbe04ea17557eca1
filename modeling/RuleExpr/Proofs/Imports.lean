import RuleExpr.Proofs.FirstOfKey
import RuleExpr.Proofs.TypeConflicts

/-!
# What Importing Takes

Importing goes through the dependencies without errors in order, and through the methods of each:
its own ones, then those it has imported itself.  The methods that are met on this way, that no
compiler made and that the filter accepts, are the offers of the dependencies.  What is imported
are the first offers of their keys, in the order in which they were met.  A type is found
afterwards under every key that a dependency exports, and types of one key are in conflict only if
there are two of them, however often one is exported again.

The module a method comes from is recorded when the method is first imported anywhere.  So a
second import finds all of its methods recorded and changes nothing.
-/

namespace RuleExpr

/-- A method that can be imported from a dependency. -/
structure Offer where
  dependency : String
  method : Method

namespace Offer

def key (o : Offer) : MethodKey := o.method.key

/-- Those offers that are the first of their keys. -/
def firsts (offers : List Offer) : List Offer := offers.eraseDupsBy fun a b => a.key = b.key

theorem firsts_concat (offers : List Offer) (o : Offer) :
    firsts (offers ++ [o]) =
      if (firsts offers).any (·.key = o.key) then firsts offers else firsts offers ++ [o] :=
  firstsBy_concat key offers o

theorem firsts_sublist (offers : List Offer) : (firsts offers).Sublist offers :=
  firstsBy_sublist key offers

/-- Of each key the first offer is kept. -/
theorem find?_firsts (offers : List Offer) (key : MethodKey) :
    (firsts offers).find? (·.key = key) = offers.find? (·.key = key) :=
  find?_firstsBy Offer.key offers key

theorem nodup_firsts (offers : List Offer) : ((firsts offers).map key).Nodup :=
  nodup_map_firstsBy key offers

end Offer

def Dependency.exportedMethods (d : Dependency) : List Method :=
  d.compiled.source.methods ++ d.compiled.source.importedMethods

/-- The methods that a filter lets a dependency offer. -/
def MethodFilter.offers (filter : Option MethodFilter) (dependency : String)
    (methods : List Method) : List Offer :=
  (methods.filter fun f => !f.head.isSynthetic &&
    filter.elim .accept (· dependency f.head) = .accept).map (.mk dependency)

theorem MethodFilter.offers_cons (filter : Option MethodFilter) (dependency : String) (f : Method)
    (rest : List Method) :
    offers filter dependency (f :: rest) =
      offers filter dependency [f] ++ offers filter dependency rest := by
  rw [offers, ← List.singleton_append, List.filter_append, List.map_append]
  rfl

namespace RuleModule

/-- Dependencies without errors. -/
def usable (m : RuleModule) : List Dependency := m.dependencies.filter (!·.hasErrors)

/-- Everything that can be imported, in the order in which it is met. -/
def offers (m : RuleModule) : List Offer :=
  m.usable.flatMap fun d => MethodFilter.offers m.filter d.name d.exportedMethods

end RuleModule

namespace Workspace

/-- The offers with the modules they come from are recorded one after the other. -/
def tagAll (w : Workspace) (offers : List Offer) : Workspace :=
  offers.foldl (fun w o => (w.tagOrigin o.method o.dependency).2) w

theorem tagAll_concat (w : Workspace) (offers : List Offer) (o : Offer) :
    w.tagAll (offers ++ [o]) = ((w.tagAll offers).tagOrigin o.method o.dependency).2 := by
  rw [tagAll, List.foldl_append]
  rfl

variable {w : Workspace} {f g : Method} {name : String}

theorem tagOrigin_of_isSome (h : (w.origin? f).isSome) : (w.tagOrigin f name).2 = w := by
  rw [tagOrigin, if_pos h]

theorem origin?_tagOrigin (w : Workspace) (f : Method) (name : String) :
    ((w.tagOrigin f name).2.origin? f).isSome := by
  unfold tagOrigin
  split
  case isTrue h => exact h
  case isFalse h =>
    rw [Bool.not_eq_true, Option.isSome_eq_false_iff, Option.isNone_iff_eq_none] at h
    simp only [origin?] at h ⊢
    rw [Assoc.get?_append, h, Assoc.get?_cons, if_pos rfl]
    rfl

/-- An origin is never taken back. -/
theorem origin?_tagOrigin_of_isSome (h : (w.origin? g).isSome) :
    ((w.tagOrigin f name).2.origin? g).isSome := by
  unfold tagOrigin
  split
  · exact h
  · obtain ⟨origin, horigin⟩ := Option.isSome_iff_exists.1 h
    simp only [origin?] at horigin ⊢
    rw [Assoc.get?_append, horigin]
    rfl

theorem origin?_tagAll (w : Workspace) {offers : List Offer} {o : Offer} (h : o ∈ offers) :
    ((w.tagAll offers).origin? o.method).isSome := by
  induction offers using List.reverseRecOn with
  | nil => cases h
  | append_singleton offers last ih =>
    rw [tagAll_concat]
    rcases List.mem_append.1 h with hold | hlast
    · exact origin?_tagOrigin_of_isSome (ih hold)
    · rw [List.mem_singleton.1 hlast]
      apply origin?_tagOrigin

theorem tagAll_of_isSome {offers : List Offer} (h : ∀ o ∈ offers, (w.origin? o.method).isSome) :
    w.tagAll offers = w := by
  induction offers with
  | nil => rfl
  | cons o rest ih =>
    change tagAll (w.tagOrigin o.method o.dependency).2 rest = w
    rw [tagOrigin_of_isSome (h o List.mem_cons_self)]
    exact ih fun other hother => h other (List.mem_cons_of_mem _ hother)

/-- Recording the same origins again changes nothing. -/
theorem tagAll_tagAll (w : Workspace) (offers : List Offer) :
    (w.tagAll offers).tagAll offers = w.tagAll offers :=
  tagAll_of_isSome fun _ ho => w.origin?_tagAll ho

end Workspace

namespace Imports

/-- The methods so far are the first ones of the given offers, and their origins are recorded. -/
structure Took (w : Workspace) (offers : List Offer) (state : Imports × Workspace) : Prop where
  methods : state.1.methods = (Offer.firsts offers).map (·.method)
  workspace : state.2 = w.tagAll (Offer.firsts offers)

variable {w : Workspace} {offers : List Offer} {state : Imports × Workspace} {own : TypeTable}
  {filter : Option MethodFilter} {dependency : String}

theorem Took.addMethod (h : Took w offers state) (f : Method) :
    Took w (offers ++ [⟨dependency, f⟩]) (addMethod dependency state f) := by
  obtain ⟨i, w'⟩ := state
  obtain ⟨hmethods, rfl⟩ : i.methods = _ ∧ w' = _ := ⟨h.methods, h.workspace⟩
  have htaken : i.methods.any (·.key = f.key) =
      (Offer.firsts offers).any (·.key = (⟨dependency, f⟩ : Offer).key) := by
    rw [hmethods, List.any_map]
    rfl
  unfold Imports.addMethod
  dsimp only
  rw [htaken]
  split
  case isTrue hany =>
    have hsame : Offer.firsts (offers ++ [⟨dependency, f⟩]) = Offer.firsts offers := by
      rw [Offer.firsts_concat, if_pos hany]
    rw [← hsame] at hmethods ⊢
    exact ⟨hmethods, rfl⟩
  case isFalse hany =>
    have hmore : Offer.firsts (offers ++ [⟨dependency, f⟩]) =
        Offer.firsts offers ++ [⟨dependency, f⟩] := by
      rw [Offer.firsts_concat, if_neg hany]
    constructor
    · rw [hmore, List.map_append, hmethods]
      rfl
    · rw [hmore, Workspace.tagAll_concat]

theorem Took.offerMethod (h : Took w offers state) (f : Method) :
    Took w (offers ++ MethodFilter.offers filter dependency [f])
      (offerMethod filter dependency state f) := by
  have hnone : Took w (offers ++ []) state := by rwa [List.append_nil]
  unfold MethodFilter.offers Imports.offerMethod
  cases hsynthetic : f.head.isSynthetic with
  | true => simpa [hsynthetic] using hnone
  | false =>
    cases hdecision : filter.elim .accept (· dependency f.head) with
    | accept => simpa [hsynthetic, hdecision] using h.addMethod f
    | skip => simpa [hsynthetic, hdecision] using hnone
    | reject reason =>
      have herror : Took w (offers ++ [])
          (state.1.addError (.methodRejected dependency f.signature reason), state.2) :=
        ⟨hnone.methods, hnone.workspace⟩
      simpa [hsynthetic, hdecision] using herror

theorem Took.offerMethods (h : Took w offers state) (methods : List Method) :
    Took w (offers ++ MethodFilter.offers filter dependency methods)
      (methods.foldl (Imports.offerMethod filter dependency) state) := by
  induction methods generalizing offers state with
  | nil => simpa [MethodFilter.offers] using h
  | cons f rest ih =>
    rw [MethodFilter.offers_cons, ← List.append_assoc]
    exact ih (h.offerMethod f)

theorem addType_methods (d : Declarations) (own : TypeTable) (dependency : String) (i : Imports)
    (t : Ty) : (addType d own dependency i t).methods = i.methods := by
  unfold addType
  split
  · split <;> rfl
  · rfl

theorem addTypes_methods (d : Declarations) (own : TypeTable) (dependency : String) (i : Imports)
    (types : List Ty) : (types.foldl (addType d own dependency) i).methods = i.methods := by
  apply List.foldlRecOn (motive := fun j : Imports => j.methods = i.methods)
  · rfl
  · exact fun j hj t _ => (addType_methods d own dependency j t).trans hj

theorem Took.addDependencies (h : Took w offers state) (dependencies : List Dependency) :
    Took w (offers ++ (dependencies.filter (!·.hasErrors)).flatMap fun d =>
        MethodFilter.offers filter d.name d.exportedMethods)
      (dependencies.foldl (addDependency own filter) state) := by
  induction dependencies generalizing offers state with
  | nil => simpa using h
  | cons d rest ih =>
    rw [List.foldl_cons]
    cases herrors : d.hasErrors with
    | true =>
      rw [List.filter_cons_of_neg (by simp [herrors])]
      apply ih
      rw [addDependency, if_pos herrors]
      exact ⟨h.methods, h.workspace⟩
    | false =>
      rw [List.filter_cons_of_pos (by simp [herrors]), List.flatMap_cons, ← List.append_assoc]
      apply ih
      rw [addDependency, if_neg (by simp [herrors])]
      apply Took.offerMethods
      exact ⟨(addTypes_methods _ _ _ _ _).trans h.methods, h.workspace⟩

/-- The key is that of an own type or of one that has been imported. -/
def Covers (own : TypeTable) (i : Imports) (key : TypeKey) : Prop :=
  Assoc.contains own key ∨ Assoc.contains i.types key

variable {d : Declarations} {i : Imports} {t u : Ty} {key : TypeKey}

/-- A key stays covered, and the key of a type that is offered becomes so. -/
theorem addType_covers (h : Covers own i key ∨ t.key = key) :
    Covers own (addType d own dependency i t) key := by
  unfold addType
  split
  case h_1 known hknown =>
    have hcovers : Covers own i key := by
      rcases h with hcovers | rfl
      · exact hcovers
      · rw [Covers, Assoc.contains_eq_isSome, Assoc.contains_eq_isSome]
        cases hown : Assoc.get? own t.key with
        | some u => exact .inl rfl
        | none =>
          rw [hown] at hknown
          exact .inr (Option.isSome_of_eq_some hknown)
    split <;> exact hcovers
  case h_2 =>
    have happend : Assoc.contains (i.types ++ [(t.key, t)]) key =
        (Assoc.contains i.types key || decide (t.key = key)) := by
      simp [Assoc.contains]
    rcases h with hown | hkey
    · refine hown.imp_right fun hcontains => ?_
      rw [happend, hcontains, Bool.true_or]
    · right
      rw [happend, decide_eq_true hkey, Bool.or_true]

theorem addTypes_covers {types : List Ty} (h : Covers own i key ∨ ∃ t ∈ types, t.key = key) :
    Covers own (types.foldl (addType d own dependency) i) key := by
  induction types generalizing i with
  | nil => simpa using h
  | cons t rest ih =>
    apply ih
    rcases h with hcovers | ⟨u, hu, hkey⟩
    · exact .inl (addType_covers (.inl hcovers))
    · rcases List.mem_cons.1 hu with rfl | hrest
      · exact .inl (addType_covers (.inr hkey))
      · exact .inr ⟨u, hrest, hkey⟩

theorem offerMethod_types (filter : Option MethodFilter) (dependency : String)
    (state : Imports × Workspace) (f : Method) :
    (offerMethod filter dependency state f).1.types = state.1.types := by
  unfold offerMethod
  split
  · rfl
  · split
    · unfold addMethod
      dsimp only
      split <;> rfl
    · rfl
    · rfl

theorem offerMethods_types (filter : Option MethodFilter) (dependency : String)
    (state : Imports × Workspace) (methods : List Method) :
    (methods.foldl (offerMethod filter dependency) state).1.types = state.1.types := by
  apply List.foldlRecOn (motive := fun after : Imports × Workspace => after.1.types = state.1.types)
  · rfl
  · exact fun after hafter f _ => (offerMethod_types filter dependency after f).trans hafter

theorem addDependency_covers {d : Dependency}
    (h : Covers own state.1 key ∨ d.hasErrors = false ∧ ∃ t ∈ d.exportedTypes, t.key = key) :
    Covers own (addDependency own filter state d).1 key := by
  unfold addDependency
  dsimp only
  split
  case isTrue herrors =>
    rcases h with hcovers | ⟨hsound, -⟩
    · exact hcovers
    · rw [hsound] at herrors
      cases herrors
  case isFalse =>
    rw [Covers, offerMethods_types]
    apply addTypes_covers
    exact h.imp_right fun hexported => hexported.2

theorem addDependencies_covers {dependencies : List Dependency}
    (h : Covers own state.1 key ∨ ∃ d ∈ dependencies, d.hasErrors = false ∧
      ∃ t ∈ d.exportedTypes, t.key = key) :
    Covers own (dependencies.foldl (addDependency own filter) state).1 key := by
  induction dependencies generalizing state with
  | nil => simpa using h
  | cons d rest ih =>
    apply ih
    rcases h with hcovers | ⟨other, hother, hexported⟩
    · exact .inl (addDependency_covers (.inl hcovers))
    · rcases List.mem_cons.1 hother with rfl | hrest
      · exact .inl (addDependency_covers (.inr hexported))
      · exact .inr ⟨other, hrest, hexported⟩

/-- No type but `t` has been imported under its key, and there is no conflict about it. -/
structure Undisputed (t : Ty) (i : Imports) : Prop where
  types : ∀ u, Assoc.get? i.types t.key = some u → u = t
  errors : ∀ dependency, .typeConflict t.key dependency ∉ i.errors

theorem structurallyEqual_self (d : Declarations) (t : Ty) : d.structurallyEqual t t = true := by
  simp [Declarations.structurallyEqual]

theorem Undisputed.addError (h : Undisputed t i) {error : ModuleError}
    (herror : ∀ dependency, error ≠ .typeConflict t.key dependency) :
    Undisputed t (i.addError error) where
  types := h.types
  errors := by
    intro dependency hmem
    rcases List.mem_append.1 hmem with hold | hnew
    · exact h.errors dependency hold
    · exact herror dependency (List.mem_singleton.1 hnew).symm

/-- Offering `t` again, or a type of another key, keeps it undisputed. -/
theorem Undisputed.addType (h : Undisputed t i)
    (hown : ∀ u, Assoc.get? own t.key = some u → u = t) (hu : u.key = t.key → u = t) :
    Undisputed t (addType d own dependency i u) := by
  unfold Imports.addType
  split
  case h_1 known hknown =>
    split
    case isTrue => exact h
    case isFalse hdiffer =>
      apply h.addError
      intro name herror
      obtain rfl : u = t := hu (ModuleError.typeConflict.inj herror).1
      -- Under the key of `t` only `t` is known, and it does not differ from itself.
      have hsame : known = u := by
        cases hget : Assoc.get? own u.key with
        | some v =>
          rw [hget] at hknown
          exact (Option.some.inj hknown).symm.trans (hown v hget)
        | none =>
          rw [hget] at hknown
          exact h.types known hknown
      rw [hsame, structurallyEqual_self] at hdiffer
      exact hdiffer rfl
  case h_2 =>
    refine ⟨?_, h.errors⟩
    intro v hv
    rw [Assoc.get?_append, Assoc.get?_cons] at hv
    cases hget : Assoc.get? i.types t.key with
    | some old =>
      rw [hget] at hv
      exact (Option.some.inj hv).symm.trans (h.types old hget)
    | none =>
      rw [hget] at hv
      by_cases hkey : u.key = t.key
      · rw [if_pos hkey] at hv
        exact (Option.some.inj hv).symm.trans (hu hkey)
      · rw [if_neg hkey] at hv
        cases hv

theorem Undisputed.offerMethod (h : Undisputed t state.1) (f : Method) :
    Undisputed t (offerMethod filter dependency state f).1 := by
  unfold Imports.offerMethod
  split
  · exact h
  · split
    · unfold Imports.addMethod
      dsimp only
      split <;> exact ⟨h.types, h.errors⟩
    · exact h
    · exact h.addError (by simp)

theorem Undisputed.addDependency {d : Dependency} (h : Undisputed t state.1)
    (hown : ∀ u, Assoc.get? own t.key = some u → u = t)
    (hexported : d.hasErrors = false → ∀ u ∈ d.exportedTypes, u.key = t.key → u = t) :
    Undisputed t (addDependency own filter state d).1 := by
  unfold Imports.addDependency
  dsimp only
  split
  case isTrue => exact ⟨h.types, h.errors⟩
  case isFalse hsound =>
    apply List.foldlRecOn (motive := fun after : Imports × Workspace => Undisputed t after.1)
    · apply List.foldlRecOn (motive := Undisputed t)
      · exact h
      · intro j hj u hu
        exact hj.addType hown (hexported (Bool.eq_false_iff.2 hsound) u hu)
    · exact fun after hafter f _ => hafter.offerMethod f

/-! ## Importing again -/

/-- What is imported does not depend on the origins recorded so far. -/
def Agree (state state' : Imports × Workspace) : Prop :=
  state.1 = state'.1 ∧ state.2.declarations = state'.2.declarations

theorem Agree.offerMethod {state' : Imports × Workspace} (h : Agree state state') (f : Method) :
    Agree (offerMethod filter dependency state f) (offerMethod filter dependency state' f) := by
  obtain ⟨himports, hdeclarations⟩ := h
  constructor
  · unfold Imports.offerMethod Imports.addMethod
    obtain ⟨i, w⟩ := state
    obtain ⟨i', w'⟩ := state'
    obtain rfl : i = i' := himports
    split
    · rfl
    · split
      · dsimp only
        split <;> rfl
      · rfl
      · rfl
  · calc (Imports.offerMethod filter dependency state f).2.declarations
        = state.2.declarations := (offerMethod_sameTypes filter dependency state f).declarations
      _ = state'.2.declarations := hdeclarations
      _ = _ := (offerMethod_sameTypes filter dependency state' f).declarations.symm

theorem Agree.addDependency {state' : Imports × Workspace} (h : Agree state state')
    (d : Dependency) :
    Agree (addDependency own filter state d) (addDependency own filter state' d) := by
  unfold Imports.addDependency
  dsimp only
  rw [h.1, h.2]
  split
  · exact ⟨rfl, h.2⟩
  · apply List.foldl_rel
    · exact ⟨rfl, h.2⟩
    · exact fun f _ after after' hafter => hafter.offerMethod f

end Imports

namespace RuleModule

open Imports

/-- The type is the only one that is found under its key, among the own types and among those that
dependencies without errors export. -/
structure OnlyDefines (m : RuleModule) (t : Ty) : Prop where
  own : ∀ u, (t.key, u) ∈ m.types → u = t
  exported : ∀ d ∈ m.usable, ∀ u ∈ d.exportedTypes, u.key = t.key → u = t

variable (m : RuleModule) (w : Workspace)

/-- What the dependencies are imported as. -/
def scan : Imports × Workspace :=
  m.dependencies.foldl (Imports.addDependency m.types m.filter) (.empty, w)

theorem scan_took : Took w m.offers (m.scan w) := by
  have hempty : Took w [] (Imports.empty, w) := ⟨rfl, rfl⟩
  exact hempty.addDependencies m.dependencies

theorem importDependencies_methods :
    (m.importDependencies w).1.importedMethods = (Offer.firsts m.offers).map (·.method) :=
  (m.scan_took w).methods

theorem importDependencies_workspace :
    (m.importDependencies w).2 = w.tagAll (Offer.firsts m.offers) :=
  (m.scan_took w).workspace

theorem find?_importedMethods (key : MethodKey) :
    (m.importDependencies w).1.importedMethods.find? (·.key = key) =
      (m.offers.map (·.method)).find? (·.key = key) := by
  rw [importDependencies_methods, List.find?_map, List.find?_map]
  exact congrArg (Option.map _) (Offer.find?_firsts m.offers key)

theorem nodup_importedMethods :
    ((m.importDependencies w).1.importedMethods.map Method.key).Nodup := by
  rw [importDependencies_methods, List.map_map]
  exact Offer.nodup_firsts m.offers

theorem isSynthetic_of_mem_offers {o : Offer} (h : o ∈ m.offers) :
    o.method.head.isSynthetic = false := by
  obtain ⟨d, -, ho⟩ := List.mem_flatMap.1 h
  obtain ⟨f, hf, rfl⟩ := List.mem_map.1 ho
  have htest := (List.mem_filter.1 hf).2
  simpa using (Bool.and_eq_true_iff.1 htest).1

theorem isSynthetic_importedMethods {f : Method}
    (h : f ∈ (m.importDependencies w).1.importedMethods) : f.head.isSynthetic = false := by
  rw [importDependencies_methods] at h
  obtain ⟨o, ho, rfl⟩ := List.mem_map.1 h
  exact m.isSynthetic_of_mem_offers ((Offer.firsts_sublist _).subset ho)

theorem importedTypes_covers {d : Dependency} (hd : d ∈ m.usable) {t : Ty}
    (ht : t ∈ d.exportedTypes) :
    Assoc.contains m.types t.key ∨
      Assoc.contains (m.importDependencies w).1.importedTypes t.key := by
  obtain ⟨hmem, hsound⟩ := List.mem_filter.1 hd
  have hcovers : Imports.Covers m.types (m.scan w).1 t.key :=
    addDependencies_covers (.inr ⟨d, hmem, by simpa using hsound, t, ht, rfl⟩)
  exact hcovers

theorem importErrors_of_onlyDefines {t : Ty} (h : m.OnlyDefines t) (dependency : Option String) :
    .typeConflict t.key dependency ∉ (m.importDependencies w).1.importErrors := by
  have hundisputed : Undisputed t (m.scan w).1 := by
    apply List.foldlRecOn (motive := fun after : Imports × Workspace => Undisputed t after.1)
    · exact ⟨fun u hu => (nomatch hu), fun name herror => (nomatch herror)⟩
    · intro after hafter d hd
      apply hafter.addDependency
      · exact fun u hu => h.own u (Assoc.mem_of_get? hu)
      · intro hsound
        exact h.exported d (List.mem_filter.2 ⟨hd, by rw [hsound]; rfl⟩)
  exact hundisputed.errors dependency

/-- A second import gives the same module and records nothing. -/
theorem importDependencies_again :
    (m.importDependencies w).1.importDependencies (m.importDependencies w).2 =
      m.importDependencies w := by
  -- The first import only recorded origins, which a scan does not look at.
  have hagree : Agree (m.scan (m.importDependencies w).2) (m.scan w) := by
    apply List.foldl_rel
    · exact ⟨rfl, (ModuleState.importDependencies_sameTypes m w).declarations⟩
    · exact fun d _ after after' hafter => hafter.addDependency d
  apply Prod.ext
  · change { m with
      importedTypes := (m.scan (m.importDependencies w).2).1.types
      importedMethods := (m.scan (m.importDependencies w).2).1.methods
      importErrors := (m.scan (m.importDependencies w).2).1.errors
      importWarnings := (m.scan (m.importDependencies w).2).1.warnings
      fieldCache := none
      importsCurrent := true } = (m.importDependencies w).1
    rw [hagree.1]
    rfl
  · calc ((m.importDependencies w).1.importDependencies (m.importDependencies w).2).2
        = (m.importDependencies w).2.tagAll (Offer.firsts m.offers) :=
          importDependencies_workspace (m.importDependencies w).1 (m.importDependencies w).2
      _ = (m.importDependencies w).2 := by
          rw [importDependencies_workspace, Workspace.tagAll_tagAll]

end RuleModule

/-- Of each key the first method that is offered is imported, in the order of the offers, and no
other; none of them was made by a compiler.  Every key of a type that a dependency without errors
exports is one of an own or an imported type, and a type that alone has its key is no conflict.
Importing again changes neither the module nor the origins of methods. -/
theorem importDependencies_exact (m : RuleModule) (w : Workspace) :
    let m' := (m.importDependencies w).1
    let w' := (m.importDependencies w).2
    m'.importedMethods = (Offer.firsts m.offers).map (·.method) ∧
    (∀ key, m'.importedMethods.find? (·.key = key) =
      (m.offers.map (·.method)).find? (·.key = key)) ∧
    (m'.importedMethods.map Method.key).Nodup ∧
    (∀ f ∈ m'.importedMethods, f.head.isSynthetic = false) ∧
    (∀ d ∈ m.usable, ∀ t ∈ d.exportedTypes,
      Assoc.contains m.types t.key ∨ Assoc.contains m'.importedTypes t.key) ∧
    (∀ t, m.OnlyDefines t → ∀ dependency, .typeConflict t.key dependency ∉ m'.importErrors) ∧
    m'.importDependencies w' = (m', w') := by
  intro m' w'
  refine ⟨m.importDependencies_methods w, m.find?_importedMethods w, m.nodup_importedMethods w,
    fun f hf => m.isSynthetic_importedMethods w hf, fun d hd t ht => m.importedTypes_covers w hd ht,
    fun t ht => m.importErrors_of_onlyDefines w ht, m.importDependencies_again w⟩

namespace Diamond

def order : Ty := .record 0 ⟨"base", "Order"⟩ []

def method (id : Nat) (name : String) (kind : MethodKind) : Method :=
  .native ⟨id, name, [], .int, "", kind, none⟩ fun _ _ => .ok (.int 0)

/-- A module with the given types, methods and dependencies, compiled. -/
def compiled (name : String) (types : List Ty) (methods : List Method)
    (dependencies : List Dependency) : Dependency :=
  let m : RuleModule := { RuleModule.empty name name 0 with
    types := types.map fun t => (t.key, t)
    methods
    dependencies }
  ⟨name, (m.compile .empty).1⟩

def base : Dependency :=
  compiled "base" [order] [method 1 "total" .static, method 2 "tax" .static,
    method 3 "getRate" .synthetic] []

def left : Dependency := compiled "left" [] [method 4 "total" .static] [base]

def right : Dependency := compiled "right" [] [method 5 "discount" .static] [base]

/-- Two dependencies bring the class and the methods of a third. -/
def owner : RuleModule :=
  { RuleModule.empty "Rules" "rules" 0 with dependencies := [left, right] }

theorem usable_owner : owner.usable = [left, right] := rfl

theorem onlyDefines_order : owner.OnlyDefines order where
  own _ h := nomatch h
  exported d hd u hu _ := by
    rw [usable_owner, List.mem_pair] at hd
    rcases hd with rfl | rfl <;> exact List.mem_singleton.1 hu

end Diamond

/-- The class is imported once and without a conflict, and of the two methods of one key the one
that is met first. -/
theorem importDependencies_exact_diamond :
    let m' := (Diamond.owner.importDependencies .empty).1
    Diamond.owner.OnlyDefines Diamond.order ∧
    m'.importedMethods.map (·.head.id) = [4, 2, 5] ∧
    Assoc.contains m'.importedTypes Diamond.order.key ∧
    ∀ dependency, .typeConflict Diamond.order.key dependency ∉ m'.importErrors := by
  intro m'
  obtain ⟨hmethods, -, -, -, htypes, hconflicts, -⟩ :=
    importDependencies_exact Diamond.owner .empty
  refine ⟨Diamond.onlyDefines_order, ?_, ?_, hconflicts _ Diamond.onlyDefines_order⟩
  · rw [hmethods]
    rfl
  · have hleft : Diamond.left ∈ Diamond.owner.usable := List.mem_cons_self
    have horder : Diamond.order ∈ Diamond.left.exportedTypes := List.mem_cons_self
    exact (htypes Diamond.left hleft Diamond.order horder).resolve_left nofun

end RuleExpr

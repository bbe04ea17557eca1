import RuleExpr.Proofs.BuiltModules

/-!
# Fields Seen Through Dependencies

A name stands for the own field of a module or else for the field that the first dependency sees
under it, where dependencies with errors see nothing.  `RuleModule.lookupField` says so, following
the dependencies as far as they go.  A module does not follow them at each question: it merges the
fields of its dependencies when they are first asked for, and forgets the table when the
dependencies change.

Whatever is done to a module and in whatever order questions and changes come, the table never
shows: it is always the one that would be merged anew.
-/

namespace RuleExpr

mutual

/-- Own field of the name, else the one that the dependencies see. -/
def RuleModule.lookupField : RuleModule → String → Option Field
  | ⟨_, _, _, _, fields, dependencies, _, _, _, _, _, _, _, _, _⟩, name =>
    Assoc.get? fields name <|> lookupAmong dependencies name

def Dependency.lookupField : Dependency → String → Option Field
  | ⟨_, ⟨source, diagnostics⟩⟩, name =>
    if diagnostics.any (·.isError) then none else source.lookupField name

/-- Field of the first dependency that sees one. -/
def lookupAmong : List Dependency → String → Option Field
  | [], _ => none
  | dependency :: rest, name => dependency.lookupField name <|> lookupAmong rest name

end

theorem RuleModule.lookupField_eq (m : RuleModule) (name : String) :
    m.lookupField name = (Assoc.get? m.fields name <|> lookupAmong m.dependencies name) := by
  obtain ⟨⟩ := m
  rw [lookupField]

namespace RuleModule

/-- The table of the module is the one that would be merged, and what its dependencies show is
what they see. -/
structure FieldsCurrent (m : RuleModule) : Prop where
  remembered : ∀ known, m.fieldCache = some known → known = mergedFields m.dependencies
  dependencies : ∀ d ∈ m.dependencies, ∀ name,
    Assoc.get? d.visibleFields name = d.lookupField name

variable {m m' : RuleModule}

theorem get?_mergedFields {dependencies : List Dependency}
    (h : ∀ d ∈ dependencies, ∀ name, Assoc.get? d.visibleFields name = d.lookupField name)
    (name : String) :
    Assoc.get? (mergedFields dependencies) name = lookupAmong dependencies name := by
  induction dependencies with
  | nil => rfl
  | cons d rest ih =>
    have hrest := ih fun other hother => h other (List.mem_cons_of_mem _ hother)
    calc Assoc.get? (mergedFields (d :: rest)) name
        = (Assoc.get? d.visibleFields name <|> Assoc.get? (mergedFields rest) name) := by
          rw [mergedFields, Assoc.get?_merge]
      _ = lookupAmong (d :: rest) name := by
          rw [h d List.mem_cons_self, hrest, lookupAmong]

/-- A module shows the same fields whether it is asked itself or through another one. -/
theorem visibleFields_eq_allFields (m : RuleModule) : m.visibleFields = m.allFields.1 := by
  unfold allFields dependencyFields
  obtain ⟨_, _, _, _, _, _, _, _, cache, _, _, _, _, _, _⟩ := m
  cases cache <;> rw [visibleFields]

theorem allFields_fst (m : RuleModule) :
    m.allFields.1 = Assoc.merge m.fields m.dependencyFields.1 := by
  unfold allFields dependencyFields
  cases m.fieldCache <;> rfl

theorem getField_fst (m : RuleModule) (name : String) :
    (m.getField name).1 = (Assoc.get? m.fields name <|> Assoc.get? m.dependencyFields.1 name) := by
  unfold getField
  cases Assoc.get? m.fields name <;> rfl

namespace FieldsCurrent

theorem dependencyFields_fst (h : m.FieldsCurrent) :
    m.dependencyFields.1 = mergedFields m.dependencies := by
  unfold dependencyFields
  split
  case h_1 known hcache => exact h.remembered known hcache
  case h_2 => rfl

theorem getField_eq (h : m.FieldsCurrent) (name : String) :
    (m.getField name).1 = m.lookupField name := by
  rw [getField_fst, h.dependencyFields_fst, get?_mergedFields h.dependencies, lookupField_eq]

theorem get?_allFields (h : m.FieldsCurrent) (name : String) :
    Assoc.get? m.allFields.1 name = m.lookupField name := by
  rw [allFields_fst, Assoc.get?_merge, ← getField_fst, h.getField_eq]

/-- Through a dependency the fields of a module are seen as from the module itself. -/
theorem get?_visibleFields (h : m.FieldsCurrent) (dependency : String)
    (diagnostics : List Diagnostic) (name : String) :
    Assoc.get? (Dependency.visibleFields ⟨dependency, m, diagnostics⟩) name =
      Dependency.lookupField ⟨dependency, m, diagnostics⟩ name := by
  rw [Dependency.visibleFields, Dependency.lookupField]
  split
  · rfl
  · rw [visibleFields_eq_allFields, h.get?_allFields]

/-- Reading fields keeps the table as it should be. -/
theorem remembers (h : m.FieldsCurrent) (hm' : m.Remembers m') : m'.FieldsCurrent := by
  rcases hm' with rfl | ⟨-, rfl⟩
  · exact h
  · refine ⟨?_, h.dependencies⟩
    rintro known ⟨⟩
    rfl

end FieldsCurrent

/-- The table is right in every module that can be built. -/
theorem Built.fieldsCurrent (h : m.Built) : m.FieldsCurrent := by
  induction h with
  | new name ns space => exact ⟨fun _ hknown => (nomatch hknown), fun _ hd => (nomatch hd)⟩
  | addType _ hadd ih =>
    rcases addType_eq_ok hadd with rfl | rfl
    · exact ih
    · exact ⟨ih.remembered, ih.dependencies⟩
  | addMethod _ hadd ih =>
    obtain ⟨-, rfl⟩ := addMethod_eq_ok.1 hadd
    exact ⟨ih.remembered, ih.dependencies⟩
  | addField _ hadd ih =>
    obtain ⟨-, rfl⟩ := addField_eq_ok.1 hadd
    exact ⟨ih.remembered, ih.dependencies⟩
  | addDependency _ _ name diagnostics ih ihsource =>
    -- The table is forgotten, and the new dependency shows what it sees.
    refine ⟨fun _ hknown => (nomatch hknown), ?_⟩
    intro d hd
    rcases List.mem_append.1 hd with hold | hnew
    · exact ih.dependencies d hold
    · rw [List.mem_singleton.1 hnew]
      exact ihsource.get?_visibleFields name diagnostics
  | setFilter _ filter ih => exact ⟨ih.remembered, ih.dependencies⟩
  | importDependencies _ w ih => exact ⟨fun _ hknown => (nomatch hknown), ih.dependencies⟩
  | @getField m _ name ih => exact ih.remembers (m.getField_snd name)
  | @allFields m _ ih => exact ih.remembers m.allFields_snd
  | report _ diagnostics ih => exact ⟨ih.remembered, ih.dependencies⟩

end RuleModule

/-- Whatever has been done to a module and asked of it, a field is the own one of its name, else
the one that the first dependency without errors sees, and it is the one in the table of all
fields. -/
theorem getField_eq_lookupField {m : RuleModule} (h : m.Built) (name : String) :
    (m.getField name).1 = m.lookupField name ∧
    (m.getField name).1 = Assoc.get? m.allFields.1 name := by
  have hcurrent := h.fieldsCurrent
  constructor
  · exact hcurrent.getField_eq name
  · rw [hcurrent.getField_eq, hcurrent.get?_allFields]

namespace Rates

def rate : Field := .ofConstant "rate" .int "base" (.int 9)

def base : RuleModule :=
  { RuleModule.empty "base" "base" 0 with
    methods := [(RuleModule.empty "base" "base" 0).accessor 1 rate]
    fields := [("rate", rate)] }

def start : RuleModule := .empty "Rules" "rules" 0

/-- The module has remembered that there are no fields before it gets its dependency. -/
def owner : RuleModule := (start.getField "rate").2.addDependency ⟨"base", base, []⟩

theorem built_owner : owner.Built := by
  have hadd : (RuleModule.empty "base" "base" 0).addField 1 rate = .ok base := rfl
  have hbase : base.Built := (RuleModule.Built.new "base" "base" 0).addField hadd
  have hasked := (RuleModule.Built.new "Rules" "rules" 0).getField "rate"
  exact hasked.addDependency hbase "base" []

end Rates

/-- The field of the dependency is found although its name was asked for without success before. -/
theorem getField_eq_lookupField_rate :
    (Rates.start.getField "rate").1 = none ∧ Rates.owner.Built ∧
    (Rates.owner.getField "rate").1 = some Rates.rate ∧
    Assoc.get? Rates.owner.allFields.1 "rate" = some Rates.rate := by
  obtain ⟨hlookup, hall⟩ := getField_eq_lookupField Rates.built_owner "rate"
  have hfound : Rates.owner.lookupField "rate" = some Rates.rate := rfl
  refine ⟨rfl, Rates.built_owner, hlookup.trans hfound, ?_⟩
  rw [← hall, hlookup, hfound]

end RuleExpr

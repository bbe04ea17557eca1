import RuleExpr.Proofs.Binding.Scoping

/-!
# Modules That Can Be Built

A module starts empty and is changed by the operations on modules.  `RuleModule.Built` holds of the
modules that arise in this way, by any operations in any order; what is said of all of them is
proved by induction on it.  Dependencies are modules that were built before.

Binding against a module is made of these operations too: the imports are brought up to date,
fields are read, and at most one method is added.
-/

namespace RuleExpr

open BindM BindState

namespace RuleModule

variable {m m' : RuleModule}

theorem addType_eq_ok {d : Declarations} {t known : Ty} (h : m.addType d t = .ok (known, m')) :
    m' = m ∨ m' = { m with types := m.types ++ [(t.key, t)] } := by
  unfold addType at h
  split at h
  · split at h
    · cases h
      exact .inl rfl
    · cases h
  · cases h
    exact .inr rfl

theorem addMethod_eq_ok {f : Method} :
    m.addMethod f = .ok m' ↔
      (∀ g ∈ m.methods, g.key ≠ f.key) ∧ m' = { m with methods := m.methods ++ [f] } := by
  have htaken : m.methods.any (·.key = f.key) = true ↔ ¬∀ g ∈ m.methods, g.key ≠ f.key := by simp
  unfold addMethod
  split
  case isTrue hany => simp [htaken.1 hany]
  case isFalse hany =>
    rw [htaken, not_not] at hany
    rw [Except.ok.injEq, eq_comm]
    exact ⟨fun h => ⟨hany, h⟩, fun h => h.2⟩

theorem addField_eq_ok {id : Nat} {field : Field} :
    m.addField id field = .ok m' ↔ Assoc.contains m.fields field.name = false ∧ m' = { m with
      methods := m.methods ++ [m.accessor id field]
      fields := m.fields ++ [(field.name, field)] } := by
  unfold addField
  split
  case isTrue hcontains => simp [hcontains]
  case isFalse hcontains => simp [hcontains, eq_comm]

end RuleModule

/-- A module that arises from a new one by operations, in any order.  An operation that is refused
gives no module.  A dependency has been built as well; what was reported when it was compiled may
be anything. -/
inductive RuleModule.Built : RuleModule → Prop
  | new (name ns : String) (space : Nat) : Built (.empty name ns space)
  | addType {m m' : RuleModule} {d : Declarations} {t known : Ty} (h : Built m)
      (hadd : m.addType d t = .ok (known, m')) : Built m'
  | addMethod {m m' : RuleModule} {f : Method} (h : Built m) (hadd : m.addMethod f = .ok m') :
      Built m'
  | addField {m m' : RuleModule} {id : Nat} {field : Field} (h : Built m)
      (hadd : m.addField id field = .ok m') : Built m'
  | addDependency {m source : RuleModule} (h : Built m) (hsource : Built source) (name : String)
      (diagnostics : List Diagnostic) : Built (m.addDependency ⟨name, source, diagnostics⟩)
  | setFilter {m : RuleModule} (h : Built m) (filter : MethodFilter) : Built (m.setFilter filter)
  | importDependencies {m : RuleModule} (h : Built m) (w : Workspace) :
      Built (m.importDependencies w).1
  | getField {m : RuleModule} (h : Built m) (name : String) : Built (m.getField name).2
  | allFields {m : RuleModule} (h : Built m) : Built m.allFields.2
  | report {m : RuleModule} (h : Built m) (diagnostics : List Diagnostic) :
      Built (m.report diagnostics)

theorem declareParams_restored (span : Span) (params : List (String × Ty)) :
    Moves Restored (declareParams span params) := by
  induction params with
  | nil => exact .pure _
  | cons param rest ih =>
    exact (addVar_restored _ _ _ _).bind fun _ => ih.bind fun _ => .pure _

theorem bindBody_restored (params : List (String × Ty)) (returns : Option Ty) (body : SyntaxNode) :
    Moves Restored (bindBody params returns body) := by
  refine (declareParams_restored _ _).bind fun slots => (bind_restored body).bind fun root => ?_
  split
  · exact (coerce_still _ _).restored.bind fun _ => .pure _
  · exact .pure _

/-- An action that gives its context back reads the fields of the module at most. -/
theorem BindM.Moves.owner_start {α : Type} {act : BindM α} (h : Moves Restored act)
    (σ : BindSettings) (m : RuleModule) (w : Workspace) :
    (m.ensureImports w).1.Remembers (act σ (.start m w)).2.owner :=
  ((h σ (.start m w)).1 (start_wellScoped m w)).owner

/-- What becomes of a module for which a method is bound: its body is bound, which may fail, then
its reports are recorded, and the method is added unless its key is taken. -/
theorem bindMethod_cases (m : RuleModule) (w : Workspace) (name : String)
    (params : List (String × Ty)) (returns : Option Ty) (body : SyntaxNode) (config : Config) :
    let m' := (bindMethod m w name params returns body config).2.1
    ∃ m₁, (m.ensureImports w).1.Remembers m₁ ∧ (m' = m₁ ∨ ∃ diagnostics,
      m' = m₁.report diagnostics ∨ ∃ f, (m₁.report diagnostics).addMethod f = .ok m') := by
  intro m'
  have howner := (bindBody_restored params returns body).owner_start (.standard config) m w
  refine ⟨_, howner, ?_⟩
  unfold m' bindMethod
  match bindBody params returns body (.standard config) (.start m w) with
  | (.error e, s) => exact .inl rfl
  | (.ok (slots, root), s) =>
    refine .inr ⟨s.diagnostics, ?_⟩
    dsimp only
    split
    case h_1 owner hadd => exact .inr ⟨_, hadd⟩
    case h_2 => exact .inl rfl

/-- A method that was bound has a body that was bound, and is the last one of its module. -/
theorem bindMethod_eq_ok {m m' : RuleModule} {w w' : Workspace} {name : String}
    {params : List (String × Ty)} {returns : Option Ty} {body : SyntaxNode} {config : Config}
    {f : Method} (h : bindMethod m w name params returns body config = (.ok f, m', w')) :
    ∃ head slots root s', f = .defined head slots s'.nextSlot root ∧
      bindBody params returns body (.standard config) (.start m w) = (.ok (slots, root), s') ∧
      (s'.owner.report s'.diagnostics).addMethod f = .ok m' := by
  unfold bindMethod at h
  match hrun : bindBody params returns body (.standard config) (.start m w) with
  | (.error e, s') =>
    rw [hrun] at h
    cases h
  | (.ok (slots, root), s') =>
    rw [hrun] at h
    dsimp only at h
    split at h
    case h_1 owner hadd =>
      cases h
      exact ⟨_, slots, root, s', rfl, rfl, hadd⟩
    case h_2 => cases h

namespace RuleModule

theorem allFields_snd (m : RuleModule) : m.Remembers m.allFields.2 := by
  unfold allFields dependencyFields
  cases hcache : m.fieldCache with
  | none => exact .inr ⟨hcache, rfl⟩
  | some known => exact .inl rfl

namespace Built

variable {m m' : RuleModule}

theorem ensureImports (h : m.Built) (w : Workspace) : (m.ensureImports w).1.Built := by
  unfold RuleModule.ensureImports
  split
  · exact h
  · exact h.importDependencies w

/-- A compiled module can be a dependency. -/
theorem compile (h : m.Built) (w : Workspace) : (m.compile w).1.source.Built := h.ensureImports w

theorem declareDatatype (h : m.Built) {w : Workspace} {name : String} {supers : List Ty}
    {fields : List (String × Ty)} {t : Ty}
    (hdeclare : (m.declareDatatype w name supers fields).1 = .ok (t, m')) : m'.Built := by
  unfold RuleModule.declareDatatype at hdeclare
  dsimp only at hdeclare
  split at hdeclare
  · cases hdeclare
  · exact h.addType hdeclare

theorem remembers (h : m.Built) (hm' : m.Remembers m') : m'.Built := by
  rcases hm' with rfl | ⟨hcache, rfl⟩
  · exact h
  · have hread : m.allFields.2 =
        { m with fieldCache := some (mergedFields m.dependencies) } := by
      simp only [RuleModule.allFields, dependencyFields, hcache]
    rw [← hread]
    exact h.allFields

theorem bindExpression (h : m.Built) (node : SyntaxNode) (w : Workspace) (config : Config) :
    (bindExpression node m w config).2.1.Built :=
  (h.ensureImports w).remembers ((bind_restored node).owner_start (.standard config) m w)

theorem bindMethod (h : m.Built) (w : Workspace) (name : String) (params : List (String × Ty))
    (returns : Option Ty) (body : SyntaxNode) (config : Config) :
    (bindMethod m w name params returns body config).2.1.Built := by
  obtain ⟨m₁, hm₁, hresult⟩ := bindMethod_cases m w name params returns body config
  have hbuilt : m₁.Built := (h.ensureImports w).remembers hm₁
  rcases hresult with hfailed | ⟨diagnostics, hrefused | ⟨f, hadded⟩⟩
  · rw [hfailed]
    exact hbuilt
  · rw [hrefused]
    exact hbuilt.report diagnostics
  · exact (hbuilt.report diagnostics).addMethod hadded

end Built

end RuleModule

end RuleExpr

import RuleExpr.Proofs.BuiltModules

/-!
# Methods That Are Refused

Binding a method can fail in two ways: the body cannot be bound, or the method is refused because
its key is taken.  Neither way changes the types, methods and fields of the module.  What was
reported on the body of a refused method stays in the module all the same, and is reported again
whenever the module is compiled.  So the module is as it was exactly if nothing was reported.
-/

namespace RuleExpr

open BindState

namespace RuleModule

variable {m m' : RuleModule}

/-- What a module declares itself, and what was reported on it. -/
structure SameOwn (m m' : RuleModule) : Prop where
  types_eq : m'.types = m.types
  methods_eq : m'.methods = m.methods
  fields_eq : m'.fields = m.fields
  diagnostics_eq : m'.diagnostics = m.diagnostics

theorem ensureImports_sameOwn (m : RuleModule) (w : Workspace) :
    m.SameOwn (m.ensureImports w).1 := by
  unfold ensureImports
  split
  · exact ⟨rfl, rfl, rfl, rfl⟩
  · exact ⟨rfl, rfl, rfl, rfl⟩

theorem ensureImports_importsCurrent (m : RuleModule) (w : Workspace) :
    (m.ensureImports w).1.importsCurrent = true := by
  unfold ensureImports
  split
  case isTrue h => exact h
  case isFalse => rfl

theorem report_nil (m : RuleModule) : m.report [] = m := by
  cases m
  simp only [report, List.append_nil]

/-- Reports are added to what compiling reports; the imports are not computed again. -/
theorem compile_report {w w' : Workspace} (h : (m.ensureImports w).1.Remembers m')
    (reports : List Diagnostic) :
    ((m'.report reports).compile w').1.diagnostics = (m.compile w).1.diagnostics ++ reports := by
  have hcurrent : (m'.report reports).importsCurrent = true := by
    rcases h with rfl | ⟨-, rfl⟩ <;> exact m.ensureImports_importsCurrent w
  have hkept : (m'.report reports).ensureImports w' = (m'.report reports, w') := if_pos hcurrent
  have hsame : m'.importWarnings = (m.ensureImports w).1.importWarnings ∧
      m'.importErrors = (m.ensureImports w).1.importErrors ∧
      m'.diagnostics = (m.ensureImports w).1.diagnostics := by
    rcases h with rfl | ⟨-, rfl⟩ <;> exact ⟨rfl, rfl, rfl⟩
  rw [compile, hkept, compile]
  simp only [report, hsame, List.append_assoc]

end RuleModule

/-- What is reported on the body of a method; nothing if it could not be bound at all. -/
def bodyReports (m : RuleModule) (w : Workspace) (params : List (String × Ty))
    (returns : Option Ty) (body : SyntaxNode) (config : Config) : List Diagnostic :=
  match bindBody params returns body (.standard config) (.start m w) with
  | (.ok _, s) => s.diagnostics
  | (.error _, _) => []

section Refused

variable {m : RuleModule} {w : Workspace} {name : String} {params : List (String × Ty)}
  {returns : Option Ty} {body : SyntaxNode} {config : Config} {e : BindError}

theorem bindMethod_eq_error
    (h : (bindMethod m w name params returns body config).1 = .error e) :
    ∃ m₁, (m.ensureImports w).1.Remembers m₁ ∧
      (bindMethod m w name params returns body config).2.1 =
        m₁.report (bodyReports m w params returns body config) := by
  have howner := (bindBody_restored params returns body).owner_start (.standard config) m w
  refine ⟨_, howner, ?_⟩
  unfold bindMethod at h ⊢
  unfold bodyReports
  match hrun : bindBody params returns body (.standard config) (.start m w) with
  | (.error _, s) => exact (RuleModule.report_nil s.owner).symm
  | (.ok (slots, root), s) =>
    rw [hrun] at h
    dsimp only at h ⊢
    split
    case h_1 owner hadd =>
      rw [hadd] at h
      cases h
    case h_2 => rfl

/-- After a method that could not be bound or was refused, the module has the types, methods and
fields that it had, and its reports are followed by those on the body.  It is as before exactly if
there are none, and compiling it then has errors exactly if it had. -/
theorem bindMethod_refused (h : (bindMethod m w name params returns body config).1 = .error e) :
    let m' := (bindMethod m w name params returns body config).2.1
    let w' := (bindMethod m w name params returns body config).2.2
    let reports := bodyReports m w params returns body config
    m'.types = m.types ∧ m'.methods = m.methods ∧ m'.fields = m.fields ∧
      m'.diagnostics = m.diagnostics ++ reports ∧
      (m'.diagnostics = m.diagnostics ↔ reports = []) ∧
      (m'.compile w').1.diagnostics = (m.compile w).1.diagnostics ++ reports ∧
      (m'.compile w').1.hasErrors = ((m.compile w).1.hasErrors || reports.any (·.isError)) := by
  intro m' w' reports
  obtain ⟨m₁, hm₁, hm'⟩ := bindMethod_eq_error h
  have hown : m.SameOwn m₁ := by
    have hsame := m.ensureImports_sameOwn w
    rcases hm₁ with rfl | ⟨-, rfl⟩
    · exact hsame
    · exact ⟨hsame.types_eq, hsame.methods_eq, hsame.fields_eq, hsame.diagnostics_eq⟩
  have hdiagnostics : m'.diagnostics = m.diagnostics ++ reports := by
    unfold m'
    rw [hm', RuleModule.report, hown.diagnostics_eq]
  have hcompile : (m'.compile w').1.diagnostics = (m.compile w).1.diagnostics ++ reports := by
    unfold m'
    rw [hm']
    exact RuleModule.compile_report hm₁ reports
  refine ⟨?_, ?_, ?_, hdiagnostics, ?_, hcompile, ?_⟩
  · exact (congrArg RuleModule.types hm').trans hown.types_eq
  · exact (congrArg RuleModule.methods hm').trans hown.methods_eq
  · exact (congrArg RuleModule.fields hm').trans hown.fields_eq
  · rw [hdiagnostics, List.append_right_eq_self]
  · rw [CompiledModule.hasErrors, hcompile, List.any_append, CompiledModule.hasErrors]

end Refused

namespace Twice

/-- A module with the method `m()`. -/
def owner : RuleModule × Workspace :=
  (bindMethod (.empty "Rules" "rules" 0) .empty "m" [] none
    (.leaf (.literal .integer) "1" .nowhere) .standard).2

/-- Binds a second method `m()` with the given body. -/
def again (body : SyntaxNode) : Except BindError Method × RuleModule × Workspace :=
  bindMethod owner.1 owner.2 "m" [] none body .standard

end Twice

/-- A second method without faults is refused, and nothing is left of it. -/
theorem bindMethod_refused_silently :
    let body : SyntaxNode := .leaf (.literal .integer) "2" .nowhere
    ∃ e, (Twice.again body).1 = .error e ∧
      (Twice.again body).2.1.diagnostics = Twice.owner.1.diagnostics := by
  intro body
  have hcheck : (Twice.again body).1.isOk = false ∧
      bodyReports Twice.owner.1 Twice.owner.2 [] none body .standard = [] := by decide +kernel
  obtain ⟨hrefused, hnothing⟩ := hcheck
  match hrun : (Twice.again body).1 with
  | .ok _ =>
    rw [hrun] at hrefused
    cases hrefused
  | .error e =>
    obtain ⟨-, -, -, -, hsame, -⟩ := bindMethod_refused hrun
    exact ⟨e, rfl, hsame.2 hnothing⟩

/-- A second method that names an unknown variable is refused, and its report stays: a module that
compiled without errors has one now. -/
theorem bindMethod_refused_reports :
    let body : SyntaxNode := .leaf .identifier "missing" .nowhere
    let module' := (Twice.again body).2
    (Twice.again body).1.isOk = false ∧ module'.1.diagnostics ≠ Twice.owner.1.diagnostics ∧
      (Twice.owner.1.compile Twice.owner.2).1.hasErrors = false ∧
      (module'.1.compile module'.2).1.hasErrors = true := by
  decide +kernel

end RuleExpr

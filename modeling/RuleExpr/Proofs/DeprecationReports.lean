import RuleExpr.Proofs.Binding.Context
import RuleExpr.Proofs.InternalErrors
import RuleExpr.Syntax.Build

/-!
# Reports of Deprecated Methods

A call of a deprecated method is warned of where it is built, in the middle of binding, and the
warning goes to the same list as the errors.  Nothing looks at that list, so the warnings change
nothing else: with and without them a tree is bound to the same, in the same frame, and the reports
that remain are the same in the same order.

Two runs are compared at contexts that are equal but for such warnings.
-/

namespace RuleExpr

open BindM

/-- A warning of a deprecated method. -/
def Diagnostic.isDeprecation (d : Diagnostic) : Bool := d.code = .deprecatedMethod && !d.isError

/-- The reports that do not warn of deprecated methods. -/
def withoutDeprecations (diagnostics : List Diagnostic) : List Diagnostic :=
  diagnostics.filter (!·.isDeprecation)

@[simp]
theorem withoutDeprecations_append (first second : List Diagnostic) :
    withoutDeprecations (first ++ second) =
      withoutDeprecations first ++ withoutDeprecations second :=
  List.filter_append _ _

theorem withoutDeprecations_eq_nil {warnings : List Diagnostic}
    (h : ∀ d ∈ warnings, d.isDeprecation) : withoutDeprecations warnings = [] := by
  rw [withoutDeprecations, List.filter_eq_nil_iff]
  intro d hd
  simp [h d hd]

/-- No error is lost with the warnings. -/
theorem filter_isError_withoutDeprecations (diagnostics : List Diagnostic) :
    (withoutDeprecations diagnostics).filter (·.isError) = diagnostics.filter (·.isError) := by
  rw [withoutDeprecations, List.filter_filter]
  apply List.filter_congr
  intro d _
  cases h : d.isError <;> simp [Diagnostic.isDeprecation, h]

namespace BindState

variable {s s' : BindState}

/-- The second context is the first one but for warnings of deprecated methods. -/
structure SameButWarnings (s s' : BindState) : Prop where
  state : s' = { s with diagnostics := s'.diagnostics }
  reports : withoutDeprecations s'.diagnostics = withoutDeprecations s.diagnostics

theorem SameButWarnings.refl (s : BindState) : s.SameButWarnings s := ⟨rfl, rfl⟩

theorem SameButWarnings.depth (h : s.SameButWarnings s') : s'.depth = s.depth := by
  rw [h.state]

/-- Both contexts with further reports that are the same but for such warnings. -/
theorem SameButWarnings.report (h : s.SameButWarnings s') {new new' : List Diagnostic}
    (hnew : withoutDeprecations new' = withoutDeprecations new) :
    { s with diagnostics := s.diagnostics ++ new }.SameButWarnings
      { s' with diagnostics := s'.diagnostics ++ new' } where
  state := by
    rw [h.state]
  reports := by
    rw [withoutDeprecations_append, withoutDeprecations_append, h.reports, hnew]

theorem SameButWarnings.pushScope (h : s.SameButWarnings s') :
    s.pushScope.SameButWarnings s'.pushScope where
  state := by
    rw [h.state]
    rfl
  reports := h.reports

theorem closeScope_withDiagnostics (s : BindState) (diagnostics : List Diagnostic) :
    { s with diagnostics }.closeScope = { s.closeScope with diagnostics } := by
  obtain ⟨owner, workspace, scopes, receivers, reports, nextSlot, depth⟩ := s
  match scopes with
  | [] | [_] | _ :: _ :: _ => rfl

theorem SameButWarnings.closeScope (h : s.SameButWarnings s') :
    s.closeScope.SameButWarnings s'.closeScope where
  state := by
    rw [closeScope_diagnostics, h.state, closeScope_withDiagnostics]
  reports := by
    rw [closeScope_diagnostics, closeScope_diagnostics, h.reports]

theorem SameButWarnings.withDepth (h : s.SameButWarnings s') (depth : Nat) :
    { s with depth }.SameButWarnings { s' with depth } where
  state := by
    rw [h.state]
  reports := h.reports

end BindState

/-- The settings with warnings of deprecated methods turned on or off. -/
def Config.withDeprecations (config : Config) (reported : Bool) : Config :=
  { config with reportDeprecations := reported }

def BindSettings.withDeprecations (σ : BindSettings) (reported : Bool) : BindSettings :=
  { σ with config := σ.config.withDeprecations reported }

variable {σ : BindSettings} {reported : Bool}

/-- In contexts that differ in warnings of deprecated methods only, the two actions answer the same,
the second one with the warnings turned on or off, and leave such contexts behind. -/
def BindM.Indifferent (σ : BindSettings) (reported : Bool) {α : Type} (act act' : BindM α) : Prop :=
  ∀ s s' : BindState, s.SameButWarnings s' →
    (act' (σ.withDeprecations reported) s').1 = (act σ s).1 ∧
      (act σ s).2.SameButWarnings (act' (σ.withDeprecations reported) s').2

/-- Reporting a deprecation adds warnings of deprecated methods, or none. -/
theorem BindM.reportDeprecation_adds (method : Method) (span : Span) (σ : BindSettings)
    (s : BindState) :
    ∃ warnings, (∀ d ∈ warnings, d.isDeprecation) ∧
      reportDeprecation method span σ s =
        (.ok (), { s with diagnostics := s.diagnostics ++ warnings }) := by
  have hnothing : s = { s with diagnostics := s.diagnostics ++ [] } := by
    rw [List.append_nil]
  unfold reportDeprecation
  cases method.head.deprecated with
  | none => exact ⟨[], nofun, congrArg (Prod.mk _) hnothing⟩
  | some note =>
    dsimp only
    rw [run_bind_of_ok (read_eq_ok.2 ⟨rfl, rfl⟩)]
    split
    · exact ⟨_, List.forall_mem_singleton.2 rfl, rfl⟩
    · exact ⟨[], nofun, congrArg (Prod.mk _) hnothing⟩

theorem BindM.indifferent_compositional (σ : BindSettings) (reported : Bool) :
    Compositional (Indifferent σ reported) where
  pure a s s' h := ⟨rfl, h⟩
  bind {α β x x' f f'} hx hf s s' h := by
    obtain ⟨hanswer, hsame⟩ := hx s s' h
    match hrun : x σ s, hrun' : x' (σ.withDeprecations reported) s' with
    | (.error e, s₁), (answer', s₁') =>
      rw [hrun, hrun'] at hanswer hsame
      obtain rfl : answer' = .error e := hanswer
      rw [run_bind_of_error hrun, run_bind_of_error hrun']
      exact ⟨rfl, hsame⟩
    | (.ok a, s₁), (answer', s₁') =>
      rw [hrun, hrun'] at hanswer hsame
      obtain rfl : answer' = .ok a := hanswer
      rw [run_bind_of_ok hrun, run_bind_of_ok hrun']
      exact hf a s₁ s₁' hsame
  step g hg s s' h := by
    have hstep := (hg s s'.diagnostics).1
    rw [← h.state] at hstep
    change Except.ok (g s').1 = Except.ok (g s).1 ∧ (g s).2.SameButWarnings (g s').2
    rw [hstep]
    refine ⟨rfl, rfl, ?_⟩
    rw [hg.diagnostics_eq s, h.reports]
  read {β f} hf h s s' hsame := by
    have hread : f (σ.withDeprecations reported) = f σ := hf σ σ.config.maxBindDepth reported
    let σ' := σ.withDeprecations reported
    change (f σ' σ' s').1 = (f σ σ s).1 ∧ (f σ σ s).2.SameButWarnings (f σ' σ' s').2
    rw [hread]
    exact h σ s s' hsame
  query q _ s s' h := by
    change (ofCast (q σ.registry) (σ.withDeprecations reported) s').1 =
        (ofCast (q σ.registry) σ s).1 ∧
      (ofCast (q σ.registry) σ s).2.SameButWarnings
        (ofCast (q σ.registry) (σ.withDeprecations reported) s').2
    cases q σ.registry <;> exact ⟨rfl, h⟩
  report d _ s s' h := ⟨rfl, h.report rfl⟩
  deprecation method span s s' h := by
    obtain ⟨warnings, hwarnings, hrun⟩ := reportDeprecation_adds method span σ s
    obtain ⟨warnings', hwarnings', hrun'⟩ :=
      reportDeprecation_adds method span (σ.withDeprecations reported) s'
    rw [hrun, hrun']
    refine ⟨rfl, h.report ?_⟩
    rw [withoutDeprecations_eq_nil hwarnings, withoutDeprecations_eq_nil hwarnings']
  inScope hx s s' h := by
    obtain ⟨hanswer, hsame⟩ := hx s.pushScope s'.pushScope h.pushScope
    exact ⟨hanswer, hsame.closeScope⟩

theorem BindM.Indifferent.nested {act act' : BindM BoundNode} (span : Span)
    (hact : Indifferent σ reported act act') :
    Indifferent σ reported (nested span act) (nested span act') := by
  intro s s' h
  have hdepth := h.depth
  by_cases hlimit : s.depth < σ.config.maxBindDepth
  · have hlimit' : s'.depth < (σ.withDeprecations reported).config.maxBindDepth := hdepth ▸ hlimit
    obtain ⟨hanswer, hsame⟩ := hact { s with depth := s.depth + 1 }
      { s' with depth := s'.depth + 1 } (hdepth ▸ h.withDepth _)
    rw [nested_of_lt hlimit rfl, nested_of_lt hlimit' rfl]
    refine ⟨hanswer, ?_⟩
    rw [hsame.depth]
    exact hsame.withDepth _
  · have hlimit' : ¬s'.depth < (σ.withDeprecations reported).config.maxBindDepth :=
      hdepth ▸ hlimit
    rw [nested_of_not_lt hlimit, nested_of_not_lt hlimit']
    exact ⟨rfl, h.report rfl⟩

/-- Binding a tree is indifferent to whether deprecated methods are warned of. -/
theorem bind_indifferent (σ : BindSettings) (reported : Bool) (node : SyntaxNode) :
    Indifferent σ reported (bind node) (bind node) :=
  (indifferent_compositional σ reported).bindTree (fun span _ _ => .nested span) node

theorem bindExpression_of_run {node : SyntaxNode} {owner : RuleModule} {w : Workspace}
    {config : Config} {root : BoundNode} {s : BindState}
    (h : bind node (.standard config) (.start owner w) = (.ok root, s)) :
    bindExpression node owner w config =
      (.ok ⟨root, s.nextSlot, s.diagnostics⟩, s.owner, s.workspace) := by
  simp only [bindExpression, h]
  rfl

theorem bindExpression_of_error {node : SyntaxNode} {owner : RuleModule} {w : Workspace}
    {config : Config} {e : BindError} {s : BindState}
    (h : bind node (.standard config) (.start owner w) = (.error e, s)) :
    bindExpression node owner w config = (.error e, s.owner, s.workspace) := by
  simp only [bindExpression, h]
  rfl

/-- Whether deprecated methods are warned of does not influence binding.  With and without the
warnings an expression is bound to the same tree, in a frame of the same size and with the same
reports otherwise, the same errors among them, or a sum of distances does not fit with and without
them; and the same module is left behind. -/
theorem deprecation_reports_inert (node : SyntaxNode) (owner : RuleModule) (w : Workspace)
    (config : Config) (reported : Bool) :
    let bound := bindExpression node owner w config
    let bound' := bindExpression node owner w (config.withDeprecations reported)
    (bound.1 = .error (.cast .overflow) ∧ bound'.1 = .error (.cast .overflow) ∨
      ∃ e e', bound.1 = .ok e ∧ bound'.1 = .ok e' ∧
        e'.root = e.root ∧ e'.frameSize = e.frameSize ∧
        withoutDeprecations e'.diagnostics = withoutDeprecations e.diagnostics ∧
        e'.diagnostics.filter (·.isError) = e.diagnostics.filter (·.isError)) ∧
      bound'.2 = bound.2 := by
  intro bound bound'
  let σ := BindSettings.standard config
  let s := BindState.start owner w
  have htrusts : σ.registry.Trusts := Library.registry_answers.trusts
  obtain ⟨hanswer, hsame⟩ := bind_indifferent σ reported node s s (.refl s)
  match hrun' : bind node (σ.withDeprecations reported) s with
  | (answer', t') =>
    rcases (bind_onlyOverflows htrusts node).ok_or_overflow s with ⟨root, t, hrun⟩ | ⟨t, hrun⟩
    · rw [hrun, hrun'] at hanswer hsame
      obtain rfl : answer' = .ok root := hanswer
      replace hsame : t.SameButWarnings t' := hsame
      have hbound : bound = (.ok ⟨root, t.nextSlot, t.diagnostics⟩, t.owner, t.workspace) :=
        bindExpression_of_run hrun
      have hbound' : bound' = (.ok ⟨root, t'.nextSlot, t'.diagnostics⟩, t'.owner, t'.workspace) :=
        bindExpression_of_run hrun'
      rw [hbound, hbound']
      refine ⟨.inr ⟨_, _, rfl, rfl, rfl, ?_, hsame.reports, ?_⟩, ?_⟩
      · rw [hsame.state]
      · -- Deprecations are no errors, so the errors are those of the reports that agree.
        calc
          t'.diagnostics.filter (·.isError)
            = (withoutDeprecations t'.diagnostics).filter (·.isError) :=
              (filter_isError_withoutDeprecations _).symm
          _ = (withoutDeprecations t.diagnostics).filter (·.isError) := by rw [hsame.reports]
          _ = t.diagnostics.filter (·.isError) := filter_isError_withoutDeprecations _
      · rw [hsame.state]
    · rw [hrun, hrun'] at hanswer hsame
      obtain rfl : answer' = .error (.cast .overflow) := hanswer
      replace hsame : t.SameButWarnings t' := hsame
      have hbound : bound = (.error (.cast .overflow), t.owner, t.workspace) :=
        bindExpression_of_error hrun
      have hbound' : bound' = (.error (.cast .overflow), t'.owner, t'.workspace) :=
        bindExpression_of_error hrun'
      rw [hbound, hbound']
      refine ⟨.inl ⟨rfl, rfl⟩, ?_⟩
      rw [hsame.state]

/-- A call of a deprecated method before a name that is not known. -/
example :
    let old : Method := .native ⟨1, "old", [], .int, "Rules", .static, some "use new"⟩ fun _ _ =>
      .ok (.int 7)
    let owner := { RuleModule.empty "Rules" "rules" 0 with methods := [old] }
    let node := SyntaxNode.block [.call "old" [], .identifier "missing"]
    let codes (reported : Bool) :=
      (bindExpression node owner .empty (Config.standard.withDeprecations reported)).1.toOption.map
        (·.diagnostics.map (·.code))
    codes true = some [.deprecatedMethod, .unknownIdentifier] ∧
      codes false = some [.unknownIdentifier] := by
  decide +kernel

end RuleExpr

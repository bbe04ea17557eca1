import RuleExpr.Proofs.Binding.Steps

/-!
# What Binding Leaves of Its Context

Binding a tree gives its context back as it was, with variables added at the end of the innermost
scope and reports at the end of the reports.  The scopes around, the receivers and the nesting
level are restored on every way out, also when binding fails.  Nothing is assumed of the tree, of
the settings or of the casts of the registry; the context is any that can be reached.
-/

namespace RuleExpr

open BindM BindState

theorem BindM.Moves.restored {α : Type} {act : BindM α} (h : Moves Still act) :
    Moves Restored act :=
  h.mono fun _ _ => Still.restored

theorem BindM.Moves.filled {α : Type} {act : BindM α} (h : Moves Restored act) :
    Moves Filled act :=
  h.mono fun _ _ => Restored.filled

/-- A variable joins the innermost scope, with the next slot. -/
theorem addVar_restored (ns name : String) (t : Ty) (span : Span) :
    Moves Restored (addVar ns name t span) := by
  unfold addVar
  intro settings s
  have hget : (get : BindM BindState) settings s = (.ok s, s) := rfl
  rw [run_bind_of_ok hget]
  split
  · exact ((reportError_still _ _ _).bind fun _ => .pure _).restored settings s
  · refine ⟨fun hs => ?_, rfl⟩
    obtain ⟨inner, outer, hscopes⟩ := List.exists_cons_of_ne_nil hs.scopes
    refine ⟨⟨⟨inner, outer, [⟨ns, name, t, s.nextSlot⟩], hscopes, ?_, ?_⟩, ?_, ?_, ?_, ?_⟩, ?_⟩
    · simp only [hscopes]
      rfl
    · intro var hvar
      rw [List.mem_singleton.1 hvar]
      exact ⟨Nat.le_refl _, Nat.lt_succ_self _⟩
    · exact Nat.le_succ _
    · exact List.prefix_rfl
    · rfl
    · exact .refl _
    · rfl

/-- A scope that is opened and closed leaves variables and receivers as they were, whatever was
added in it. -/
theorem closeScope_of_fills {s s₁ : BindState} (hs : s.WellScoped) (h : s.pushScope.Fills s₁) :
    s₁.closeScope = { s₁ with scopes := s.scopes, receivers := s.receivers } := by
  obtain ⟨_, _, new, hpush, hscopes, -⟩ := h.scopes
  obtain ⟨rfl, rfl⟩ := List.cons.inj hpush
  obtain ⟨inner, outer, hs₁⟩ := List.exists_cons_of_ne_nil hs.scopes
  obtain ⟨added, hadded, hnumbers⟩ := h.receivers
  replace hadded : s₁.receivers = s.receivers ++ added := hadded
  have hdepth : s₁.scopeDepth = s.scopeDepth + 1 := h.scopeDepth
  -- The receivers from outside have smaller numbers than the closed scope, the new ones have its.
  have hkeep : s₁.receivers.filter (·.1 < s₁.scopeDepth) = s.receivers := by
    rw [hadded, List.filter_append, List.filter_eq_self.2, List.filter_eq_nil_iff.2,
      List.append_nil]
    · intro receiver hmem
      simp [hnumbers receiver hmem]
    · intro receiver hmem
      have := hs.receivers receiver hmem
      simpa [hdepth] using Nat.lt_succ_of_le this
  rw [hs₁] at hscopes
  simp only [closeScope, BindState.popScope, hscopes, hkeep]
  rw [hs₁]

theorem closeScope_extends {s s₁ : BindState} (hs : s.WellScoped)
    (h : s.pushScope.Fills s₁) : s.Extends s₁.closeScope := by
  obtain ⟨inner, outer, hscopes⟩ := List.exists_cons_of_ne_nil hs.scopes
  rw [closeScope_of_fills hs h]
  refine ⟨⟨⟨inner, outer, [], hscopes, ?_, by simp⟩, h.nextSlot, h.diagnostics, h.program,
    h.owner⟩, rfl⟩
  simpa using hscopes

/-- Closing a scope concerns variables and receivers alone. -/
theorem closeScope_eq (s : BindState) :
    ∃ scopes receivers, s.closeScope = { s with scopes, receivers } := by
  unfold closeScope
  split
  case h_1 closed hclosed =>
    unfold BindState.popScope at hclosed
    split at hclosed <;> cases hclosed
    exact ⟨_, _, rfl⟩
  case h_2 => exact ⟨s.scopes, s.receivers, rfl⟩

theorem closeScope_nextSlot (s : BindState) : s.closeScope.nextSlot = s.nextSlot := by
  obtain ⟨scopes, receivers, hclosed⟩ := closeScope_eq s
  rw [hclosed]

theorem closeScope_diagnostics (s : BindState) : s.closeScope.diagnostics = s.diagnostics := by
  obtain ⟨scopes, receivers, hclosed⟩ := closeScope_eq s
  rw [hclosed]

theorem pushScope_wellScoped {s : BindState} (hs : s.WellScoped) : s.pushScope.WellScoped where
  scopes := List.cons_ne_nil _ _
  receivers receiver hmem := Nat.le_succ_of_le (hs.receivers receiver hmem)

/-- A scope takes its variables and receivers with it. -/
theorem inScope_restored {α : Type} {act : BindM α} (h : Moves Filled act) :
    Moves Restored (inScope act) := by
  intro settings s
  have hact := h settings s.pushScope
  refine ⟨fun hs => closeScope_extends hs (hact.1 (pushScope_wellScoped hs)), ?_⟩
  obtain ⟨scopes, receivers, hclosed⟩ := closeScope_eq (act settings s.pushScope).2
  change (act settings s.pushScope).2.closeScope.depth = s.depth
  rw [hclosed]
  exact hact.2

/-- The level is left again, however the tree ends. -/
theorem nested_restored (span : Span) {act : BindM BoundNode} (h : Moves Restored act) :
    Moves Restored (nested span act) := by
  refine Moves.read.bind fun settings => Moves.get.bind fun s => ?_
  split
  · intro settings s
    obtain ⟨hact, hdepth⟩ := h settings { s with depth := s.depth + 1 }
    refine ⟨fun hs => ?_, ?_⟩
    · have hact := hact ⟨hs.scopes, hs.receivers⟩
      exact ⟨⟨hact.scopes, hact.nextSlot, hact.diagnostics, hact.program, hact.owner⟩,
        hact.receivers⟩
    · change (act settings { s with depth := s.depth + 1 }).2.depth - 1 = s.depth
      rw [hdepth, Nat.add_sub_cancel]
  · exact (errorNode_still _ _ _).restored

/-- All children restore the context in which they are bound. -/
def ChildrenRestore (children : List Child) : Prop :=
  ∀ child ∈ children, Moves Restored child.bind

namespace ChildrenRestore

variable {child : Child} {rest : List Child}

theorem head (h : ChildrenRestore (child :: rest)) : Moves Restored child.bind :=
  h child List.mem_cons_self

theorem tail (h : ChildrenRestore (child :: rest)) : ChildrenRestore rest :=
  fun other hmem => h other (List.mem_cons_of_mem _ hmem)

end ChildrenRestore

theorem bindAll_restored {children : List Child} (h : ChildrenRestore children) :
    Moves Restored (bindAll children) := by
  induction children with
  | nil => exact .pure _
  | cons child rest ih => exact h.head.bind fun _ => (ih h.tail).bind fun _ => .pure _

theorem bindFieldAccess_restored (node : SyntaxNode) {children : List Child}
    (h : ChildrenRestore children) : Moves Restored (bindFieldAccess node children) := by
  unfold bindFieldAccess
  split
  · exact h.head.bind fun _ => (accessField_still _ _).restored
  · exact (malformed_still _ _).restored

theorem bindIndex_restored (node : SyntaxNode) {children : List Child}
    (h : ChildrenRestore children) : Moves Restored (bindIndex node children) := by
  unfold bindIndex
  split
  · exact h.head.bind fun _ => h.tail.head.bind fun _ => (accessElement_still _ _ _).restored
  · exact (malformed_still _ _).restored

theorem bindMethodCall_restored (node : SyntaxNode) {children : List Child}
    (h : ChildrenRestore children) : Moves Restored (bindMethodCall node children) := by
  refine (bindAll_restored h).bind fun arguments => ?_
  split
  · exact .pure _
  · exact (findMethods_moves _).bind fun _ => (callResolved_still _ _ _ _ _).restored

theorem bindMemberCall_restored (node : SyntaxNode) {children : List Child}
    (h : ChildrenRestore children) : Moves Restored (bindMemberCall node children) := by
  unfold bindMemberCall
  split
  · exact (malformed_still _ _).restored
  · refine h.head.bind fun receiver => (bindAll_restored h.tail).bind fun arguments => ?_
    split
    · exact .pure _
    · exact Moves.get.bind fun _ => (callResolved_still _ _ _ _ _).restored

theorem bindNew_restored (node : SyntaxNode) {children : List Child}
    (h : ChildrenRestore children) : Moves Restored (bindNew node children) := by
  unfold bindNew
  split
  · exact (malformed_still _ _).restored
  · refine (resolveType_still _).restored.bind fun t? => ?_
    refine (bindAll_restored h.tail).bind fun arguments => ?_
    split
    · exact .pure _
    · split
      · exact .pure _
      · exact (construct_still _ _ _).restored

theorem bindCondition_restored {child : Child} (h : Moves Restored child.bind) :
    Moves Restored (bindCondition child) :=
  h.bind fun _ => (asCondition_still _).restored

theorem bindLogical_restored (node : SyntaxNode) (op : BinaryOp) {children : List Child}
    (h : ChildrenRestore children) : Moves Restored (bindLogical node op children) := by
  unfold bindLogical
  split
  · refine (bindCondition_restored h.head).bind fun left => ?_
    refine (bindCondition_restored h.tail.head).bind fun right => ?_
    split <;> exact .pure _
  · exact (malformed_still _ _).restored

theorem bindBinary_restored (node : SyntaxNode) (op : BinaryOp) {children : List Child}
    (h : ChildrenRestore children) : Moves Restored (bindBinary node op children) := by
  unfold bindBinary
  split
  · exact bindLogical_restored node op h
  · split
    · refine h.head.bind fun left => h.tail.head.bind fun right => ?_
      split
      · exact .pure _
      · exact (operatorCall_still _ _ _ _).restored
    · exact (malformed_still _ _).restored

theorem bindUnary_restored (node : SyntaxNode) (op : UnaryOp) {children : List Child}
    (h : ChildrenRestore children) : Moves Restored (bindUnary node op children) := by
  unfold bindUnary
  split
  · refine h.head.bind fun operand => ?_
    split
    · exact .pure _
    · exact (operatorCall_still _ _ _ _).restored
  · exact (malformed_still _ _).restored

theorem bindConditional_restored (node : SyntaxNode) {children : List Child}
    (h : ChildrenRestore children) : Moves Restored (bindConditional node children) := by
  unfold bindConditional
  split
  · refine (bindCondition_restored h.head).bind fun condition => ?_
    refine h.tail.head.bind fun yes => h.tail.tail.head.bind fun no => ?_
    exact (conditional_still _ _ _ _).restored
  · split
    · exact (malformed_still _ _).restored
    · split
      · refine (bindCondition_restored h.head).bind fun condition => ?_
        exact h.tail.head.bind fun yes => (conditional_still _ _ _ _).restored
      · exact (malformed_still _ _).restored

theorem bindCast_restored (node : SyntaxNode) {children : List Child}
    (h : ChildrenRestore children) : Moves Restored (bindCast node children) := by
  unfold bindCast
  split
  · refine (resolveType_still _).restored.bind fun target? => ?_
    refine h.tail.head.bind fun operand => ?_
    split
    · exact (castTo_still _ _ _).restored
    · exact .pure _
  · exact (malformed_still _ _).restored

theorem bindNewArray_restored (node : SyntaxNode) {children : List Child}
    (h : ChildrenRestore children) : Moves Restored (bindNewArray node children) := by
  unfold bindNewArray
  split
  · refine (resolveType_still _).restored.bind fun element? => ?_
    refine h.tail.head.bind fun size => ?_
    split
    · exact .pure _
    · split
      · exact .pure _
      · refine (coerce_still _ _).restored.bind fun size => ?_
        split
        · exact .pure _
        · exact (arrayOf_still _).restored.bind fun _ => .pure _
  · exact (malformed_still _ _).restored

theorem bindArrayInit_restored (node : SyntaxNode) {children : List Child}
    (h : ChildrenRestore children) : Moves Restored (bindArrayInit node children) := by
  refine (bindAll_restored h).bind fun elements => ?_
  split
  · exact .pure _
  · split
    · exact (buildArray_still _ _ _).restored
    · refine (commonElementType_still _ _).restored.bind fun common => ?_
      split
      · exact (buildArray_still _ _ _).restored
      · exact .pure _

/-- The variables of a block end with it. -/
theorem bindBlock_restored (node : SyntaxNode) {children : List Child}
    (h : ChildrenRestore children) : Moves Restored (bindBlock node children) :=
  (inScope_restored (bindAll_restored h).filled).bind fun _ => .pure _

theorem declare_restored (node : SyntaxNode) (t : Ty) (initial : BoundNode) :
    Moves Restored (declare node t initial) := by
  refine (coerce_still _ _).restored.bind fun initial => ?_
  split
  · exact .pure _
  · refine (addVar_restored _ _ _ _).bind fun var? => ?_
    split <;> exact .pure _

/-- A declaration adds its variable to the scope it stands in. -/
theorem bindVarDecl_restored (node : SyntaxNode) {children : List Child}
    (h : ChildrenRestore children) : Moves Restored (bindVarDecl node children) := by
  unfold bindVarDecl
  split
  · refine (resolveType_still _).restored.bind fun declared? => ?_
    refine h.tail.head.bind fun initial => ?_
    split
    · exact declare_restored _ _ _
    · exact .pure _
  · exact (malformed_still _ _).restored

theorem declareLoopVar_restored (node : SyntaxNode) (element declared : Ty) :
    Moves Restored (declareLoopVar node element declared) := by
  unfold declareLoopVar
  have hadd (cast : Option Cast) : Moves Restored (do
      let var? ← addVar LocalVar.localNs node.text declared node.span
      return var?.map (LoopVariable.mk · cast)) :=
    (addVar_restored _ _ _ _).bind fun _ => .pure _
  split
  · exact hadd none
  · refine (implicitCast_moves _ _).bind fun cast? => ?_
    split
    · exact hadd _
    · exact (reportError_still _ _ _).restored.bind fun _ => .pure _

theorem namedLoopVar_restored (node : SyntaxNode) (element : Ty) :
    Moves Restored (namedLoopVar node element) := by
  unfold namedLoopVar
  split
  · refine (declaredLoopType_still _ _).restored.bind fun declared? => ?_
    split
    · exact declareLoopVar_restored _ _ _
    · exact .pure _
  · exact (reportError_still _ _ _).restored.bind fun _ => .pure _

/-- A receiver belongs to the scope it was added in. -/
theorem addReceiver_filled (var : LocalVar) : Moves Filled (addReceiver var) := by
  intro settings s
  refine ⟨fun hs => ?_, rfl⟩
  have hscopes := ((refl_of Restored s).1 hs).scopes
  refine ⟨⟨hscopes, Nat.le_refl _, List.prefix_rfl, rfl, .refl _⟩, [(s.scopeDepth, var)], rfl, ?_⟩
  intro receiver hmem
  rw [List.mem_singleton.1 hmem]
  rfl

theorem hiddenLoopVar_filled (body : SyntaxNode) (element : Ty) :
    Moves Filled (hiddenLoopVar body element) := by
  refine Moves.get.bind fun s => Moves.read.bind fun settings => ?_
  refine (addVar_restored _ _ _ _).filled.bind fun var? => ?_
  split
  · exact (addReceiver_filled _).bind fun _ => .pure _
  · exact .pure _

/-- Binding of a loop's body, after its variable. -/
def bindLoopBody (kind : AggregateKind) (body : Child) :
    Option LoopVariable → BindM (Option (LoopVariable × BoundNode))
  | none => return none
  | some loop => do
    let bound ← if kind.isFilter then bindCondition body else body.bind
    return if bound.isError then none else some (loop, bound)

/-- A loop declares its variable and goes on as `bindLoopBody`. -/
theorem bindLoop_some (kind : AggregateKind) (element : Ty) (var body : Child) :
    bindLoop kind element (some var) body =
      namedLoopVar var.node element >>= bindLoopBody kind body :=
  rfl

theorem bindLoop_none (kind : AggregateKind) (element : Ty) (body : Child) :
    bindLoop kind element none body =
      hiddenLoopVar body.node element >>= bindLoopBody kind body :=
  rfl

theorem bindLoopBody_filled (kind : AggregateKind) {body : Child}
    (hbody : Moves Restored body.bind) (loop? : Option LoopVariable) :
    Moves Filled (bindLoopBody kind body loop?) := by
  cases loop? with
  | none => exact .pure _
  | some loop =>
    rw [bindLoopBody]
    split
    · exact (bindCondition_restored hbody).filled.bind fun _ => .pure _
    · exact hbody.filled.bind fun _ => .pure _

theorem bindLoop_filled (kind : AggregateKind) (element : Ty) {var? : Option Child}
    {body : Child} (hbody : Moves Restored body.bind) :
    Moves Filled (bindLoop kind element var? body) := by
  have hrest := bindLoopBody_filled kind hbody
  cases var? with
  | some var =>
    rw [bindLoop_some]
    exact (namedLoopVar_restored _ _).filled.bind hrest
  | none =>
    rw [bindLoop_none]
    exact (hiddenLoopVar_filled _ _).bind hrest

/-- The loop of an aggregate has a scope of its own, which the source is bound before. -/
theorem bindAggregateOver_restored (node : SyntaxNode) (kind : AggregateKind)
    {source : Child} {var? : Option Child} {body : Child} (hsource : Moves Restored source.bind)
    (hbody : Moves Restored body.bind) :
    Moves Restored (bindAggregateOver node kind source var? body) := by
  refine hsource.bind fun source => ?_
  split
  · exact .pure _
  · split
    · exact (errorNode_still _ _ _).restored
    · refine (inScope_restored (bindLoop_filled _ _ hbody)).bind fun loop? => ?_
      split
      · exact .pure _
      · exact (aggregateType_still _ _ _ _).restored.bind fun _ => .pure _

theorem bindAggregate_restored (node : SyntaxNode) (kind : AggregateKind)
    {children : List Child} (h : ChildrenRestore children) :
    Moves Restored (bindAggregate node kind children) := by
  unfold bindAggregate
  split
  · exact bindAggregateOver_restored _ _ h.head h.tail.head
  · exact bindAggregateOver_restored _ _ h.head h.tail.tail.head
  · exact (malformed_still _ _).restored

theorem bindKind_restored (node : SyntaxNode) {children : List Child}
    (h : ChildrenRestore children) : Moves Restored (bindKind node children) := by
  unfold bindKind
  split
  · exact (bindLiteral_still _ _).restored
  · exact (bindIdentifier_still _).restored
  · exact bindFieldAccess_restored _ h
  · exact bindIndex_restored _ h
  · exact bindMethodCall_restored _ h
  · exact bindMemberCall_restored _ h
  · exact bindBinary_restored _ _ h
  · exact bindUnary_restored _ _ h
  · exact bindCast_restored _ h
  · exact bindConditional_restored _ h
  · exact bindConditional_restored _ h
  · exact bindNew_restored _ h
  · exact bindNewArray_restored _ h
  · exact bindArrayInit_restored _ h
  · exact bindAggregate_restored _ _ h
  · exact bindBlock_restored _ h
  · exact bindVarDecl_restored _ h
  · exact (errorNode_still _ _ _).restored
  · exact (errorNode_still _ _ _).restored
  · exact (errorNode_still _ _ _).restored

mutual

theorem bind_restored : ∀ node : SyntaxNode, Moves Restored (bind node)
  | ⟨kind, text?, children, span⟩ => by
    unfold bind
    exact nested_restored _ (bindKind_restored _ (childrenOf_restore children))

theorem childrenOf_restore : ∀ nodes : List SyntaxNode, ChildrenRestore (childrenOf nodes)
  | [] => by simp [childrenOf, ChildrenRestore]
  | node :: rest => by
    intro child hmem
    rw [childrenOf] at hmem
    rcases List.mem_cons.1 hmem with rfl | hmem
    · exact bind_restored node
    · exact childrenOf_restore rest child hmem

end

/-! ## Reachable contexts -/

/-- Contexts that arise from a fresh one by opening and closing scopes, declaring variables, adding
receivers, changing the reports or the module, entering nodes and binding trees, in any order. -/
inductive Reachable : BindState → Prop
  | start (owner : RuleModule) (w : Workspace) : Reachable (.start owner w)
  | opened {s : BindState} (h : Reachable s) : Reachable s.pushScope
  | closed {s s' : BindState} (h : Reachable s) (hs' : s.popScope = .ok s') : Reachable s'
  | declared {s : BindState} (h : Reachable s) (ns name : String) (t : Ty) (span : Span)
      (settings : BindSettings) : Reachable (addVar ns name t span settings s).2
  | received {s : BindState} (h : Reachable s) (var : LocalVar) (settings : BindSettings) :
      Reachable (addReceiver var settings s).2
  | reported {s : BindState} (h : Reachable s) (diagnostics : List Diagnostic) :
      Reachable { s with diagnostics }
  | changed {s : BindState} (h : Reachable s) (owner : RuleModule) (workspace : Workspace) :
      Reachable { s with owner, workspace }
  | entered {s : BindState} (h : Reachable s) : Reachable { s with depth := s.depth + 1 }
  | bound {s : BindState} (h : Reachable s) (node : SyntaxNode) (settings : BindSettings) :
      Reachable (bind node settings s).2

/-- A scope is popped only if one remains. -/
theorem popScope_wellScoped {s s' : BindState} (h : s.popScope = .ok s') : s'.WellScoped := by
  unfold BindState.popScope at h
  split at h
  case h_1 scope outer rest hscopes =>
    cases h
    refine ⟨List.cons_ne_nil _ _, ?_⟩
    intro receiver hmem
    have hlt : receiver.1 < s.scopeDepth := by simpa using (List.mem_filter.1 hmem).2
    have hdepth : s.scopeDepth = (outer :: rest).length + 1 := by rw [scopeDepth, hscopes]; rfl
    exact Nat.le_of_lt_succ (hdepth ▸ hlt)
  case h_2 => cases h

theorem Reachable.wellScoped {s : BindState} (h : Reachable s) : s.WellScoped := by
  induction h with
  | start owner w => exact ⟨List.cons_ne_nil _ _, fun receiver hmem => nomatch hmem⟩
  | opened _ ih => exact pushScope_wellScoped ih
  | closed _ hs' _ => exact popScope_wellScoped hs'
  | declared _ ns name t span settings ih =>
    exact ((addVar_restored ns name t span settings _).1 ih).wellScoped ih
  | received _ var settings ih => exact ((addReceiver_filled var settings _).1 ih).wellScoped ih
  | reported _ _ ih => exact ⟨ih.scopes, ih.receivers⟩
  | changed _ _ _ ih => exact ⟨ih.scopes, ih.receivers⟩
  | entered _ ih => exact ⟨ih.scopes, ih.receivers⟩
  | bound _ node settings ih => exact ((bind_restored node settings _).1 ih).wellScoped ih

/-- Binding restores its context on every path, whether it succeeds or fails. -/
theorem bind_restores_context (node : SyntaxNode) (settings : BindSettings) {s : BindState}
    (hs : Reachable s) :
    let s' := (bind node settings s).2
    s'.scopeDepth = s.scopeDepth ∧
    s'.scopes.tail = s.scopes.tail ∧
    s.scopes.headD [] <+: s'.scopes.headD [] ∧
    s'.receivers = s.receivers ∧
    s'.depth = s.depth ∧
    s.nextSlot ≤ s'.nextSlot ∧
    s.diagnostics <+: s'.diagnostics := by
  intro s'
  obtain ⟨hextends, hdepth⟩ : s.Restored s' := bind_restored node settings s
  have h : s.Extends s' := hextends hs.wellScoped
  obtain ⟨inner, outer, new, hscopes, hscopes', -⟩ := h.scopes
  refine ⟨h.scopeDepth, ?_, ?_, h.receivers, hdepth, h.nextSlot, h.diagnostics⟩
  · rw [hscopes, hscopes']
    rfl
  · rw [hscopes, hscopes']
    exact List.prefix_append inner new

/-- A loop with a receiver of its own and a body that is reported, in a scope with another. -/
theorem bind_restores_context_in_loop :
    let owner := RuleModule.empty "Rules" "rules" 0
    let var : LocalVar := ⟨LocalVar.localNs, "p", .string, 0⟩
    let settings : BindSettings := .standard .standard
    let s := (addReceiver var settings (BindState.start owner .empty).pushScope).2
    let node : SyntaxNode := ⟨.aggregate .collect, none,
      [⟨.arrayInit, none, [.leaf (.literal .string) "a" .nowhere], .nowhere⟩,
        .leaf .identifier "q" .nowhere], .nowhere⟩
    s.receivers = [(2, var)] ∧ (bind node settings s).2.receivers = [(2, var)] := by
  intro owner var settings s node
  have hreach : Reachable s := .received (.opened (.start owner .empty)) var settings
  exact ⟨rfl, (bind_restores_context node settings hreach).2.2.2.1⟩

end RuleExpr

import RuleExpr.Proofs.Binding.Failures

/-!
# Reported Failures

What a host can tell from a bound tree about the reports of binding it, and from the reports about
the tree.  A tree that contains an error node was reported, in every context.  The converse holds
but for one place: a member call that is resolved to a static method drops its receiver, and looks
only at whether the receiver is an error node itself.  A receiver that contains an error further
down, such as a block with a statement that could not be bound, is dropped with it, and then
nothing in the tree shows the failure.  `bind_reports_iff` says that no failure is lost in any
other way.
-/

namespace RuleExpr

open BindM BindState

/-- `node` is the node `root` or a node below it. -/
inductive SyntaxNode.Within (node : SyntaxNode) : SyntaxNode → Prop
  | refl : node.Within node
  | child {c root : SyntaxNode} (hc : c ∈ root.children) (h : node.Within c) : node.Within root

/-- A member call binds its receiver in the context `s` to a node that contains an error and is
none, and drops it, since the method is static. -/
structure LosesReceiver (σ : BindSettings) (call : SyntaxNode) (s s' : BindState) : Prop where
  kind : call.kind = .memberCall
  drops : ∃ (receiver : SyntaxNode) (rest : List SyntaxNode) (b n : BoundNode) (s₁ : BindState),
    call.children = receiver :: rest ∧ bind receiver σ s = (.ok b, s₁) ∧
    b.isError = false ∧ b.containsError = true ∧
    bindMemberCall call (childrenOf call.children) σ s = (.ok n, s') ∧ StaticCall n

variable {σ : BindSettings} {lost : BindState → BindState → Prop}

/-- What becomes of a member call after its receiver is bound. -/
theorem memberRest_accounts (node : SyntaxNode) {rest : List Child}
    (h : ChildrenAccount σ lost rest) (receiver : BoundNode) :
    Accounts σ lost receiver.Failed
      (fun n => n.Failed ∨ receiver.isError = false ∧ receiver.Failed ∧ StaticCall n) (do
        let arguments ← bindAll rest
        if receiver.isError || arguments.any (·.isError) then
          return node.poisoned
        let candidates := (← get).workspace.declarations.methodsNamed receiver.ty node.text
        callResolved candidates node.text (some receiver) arguments node.span) := by
  refine (bindAll_accounts h).also.bind fun arguments => ?_
  split
  case isTrue herror =>
    have hfailed : receiver.Failed ∨ AnyFailed arguments :=
      (Bool.or_eq_true_iff.1 herror).imp BoundNode.Failed.of_isError AnyFailed.of_any_isError
    exact .pure (iff_of_true (.inl (failed_poisoned node)) hfailed)
  case isFalse hbound =>
    have hreceiver : receiver.isError = false := by
      simp only [Bool.or_eq_true, not_or, Bool.not_eq_true] at hbound
      exact hbound.1
    refine .after Moves.get fun s => ?_
    have hcall : Accounts σ lost _ _
        (callResolved (s.workspace.declarations.methodsNamed receiver.ty node.text) node.text
          (some receiver) arguments node.span) := callResolved_accounts _ _ _ _ _
    exact hcall.congr (by simp) (by simp [hreceiver])

theorem bindMemberCall_accounts {node : SyntaxNode} (hkind : node.kind = .memberCall)
    (h : ChildrenAccount σ lost (childrenOf node.children))
    (hlost : ∀ s s', LosesReceiver σ node s s' → lost s s') :
    Accounts σ lost False BoundNode.Failed (bindMemberCall node (childrenOf node.children)) := by
  match hchildren : node.children with
  | [] =>
    rw [childrenOf]
    exact malformed_accounts _ _
  | receiver :: rest =>
    rw [hchildren, childrenOf] at h
    rw [childrenOf]
    refine h.head.bind_lost (memberRest_accounts node h.tail) ?_
    rintro s b s₁ n s' hreceiver hrest ⟨hb, hfailed, hstatic⟩
    refine hlost s s' ⟨hkind, receiver, rest, b, n, s₁, hchildren, hreceiver, hb, hfailed, ?_,
      hstatic⟩
    rw [hchildren, childrenOf]
    exact (run_bind_of_ok hreceiver).trans hrest

theorem bindKind_accounts {node : SyntaxNode}
    (h : ChildrenAccount σ lost (childrenOf node.children))
    (hlost : ∀ s s', LosesReceiver σ node s s' → lost s s') :
    Accounts σ lost False BoundNode.Failed (bindKind node (childrenOf node.children)) := by
  unfold bindKind
  split
  · exact bindLiteral_accounts _ _
  · exact bindIdentifier_accounts _
  · exact bindFieldAccess_accounts _ h
  · exact bindIndex_accounts _ h
  · exact bindMethodCall_accounts _ h
  case h_6 hkind => exact bindMemberCall_accounts hkind h hlost
  · exact bindBinary_accounts _ _ h
  · exact bindUnary_accounts _ _ h
  · exact bindCast_accounts _ h
  · exact bindConditional_accounts _ h
  · exact bindConditional_accounts _ h
  · exact bindNew_accounts _ h
  · exact bindNewArray_accounts _ h
  · exact bindArrayInit_accounts _ h
  · exact bindAggregate_accounts _ _ h
  · exact bindBlock_accounts _ h
  · exact bindVarDecl_accounts _ h
  · exact errorNode_accounts _ _ _
  · exact errorNode_accounts _ _ _
  · exact errorNode_accounts _ _ _

/-- A call somewhere in the tree loses its receiver. -/
def LosesWithin (σ : BindSettings) (node : SyntaxNode) (s s' : BindState) : Prop :=
  ∃ call : SyntaxNode, call.Within node ∧ LosesReceiver σ call s s'

mutual

theorem bind_accounts : ∀ node : SyntaxNode,
    Accounts σ (LosesWithin σ node) False BoundNode.Failed (bind node)
  | ⟨kind, text?, children, span⟩ => by
    unfold bind
    refine nested_accounts span (bindKind_accounts ?_ ?_)
    · intro child hchild
      obtain ⟨hmem, haccounts⟩ := childrenOf_account children child hchild
      apply haccounts.mono
      rintro s s' ⟨call, hwithin, hloses⟩
      exact ⟨call, .child hmem hwithin, hloses⟩
    · exact fun s s' hloses => ⟨_, .refl, hloses⟩

theorem childrenOf_account : ∀ nodes : List SyntaxNode, ∀ child ∈ childrenOf nodes,
    child.node ∈ nodes ∧
      Accounts σ (LosesWithin σ child.node) False BoundNode.Failed child.bind
  | [] => by simp [childrenOf]
  | node :: rest => by
    intro child hmem
    rw [childrenOf] at hmem
    rcases List.mem_cons.1 hmem with rfl | hmem
    · exact ⟨List.mem_cons_self, bind_accounts node⟩
    · obtain ⟨hnode, haccounts⟩ := childrenOf_account rest child hmem
      exact ⟨List.mem_cons_of_mem _ hnode, haccounts⟩

end

/-- The receiver that a call loses was reported while it was bound. -/
theorem LosesReceiver.reports {call : SyntaxNode} {s s' : BindState}
    (h : LosesReceiver σ call s s') : s.Reports s' := by
  obtain ⟨receiver, rest, b, n, s₁, hchildren, hreceiver, -, hfailed, hcall, -⟩ := h.drops
  obtain ⟨hgrows, hbalanced⟩ := bind_accounts receiver hreceiver
  rw [hchildren, childrenOf] at hcall
  have hrest := (run_bind_of_ok hreceiver).symm.trans hcall
  have haccount : ChildrenAccount σ (fun _ _ => True) (childrenOf rest) := fun child hchild =>
    (childrenOf_account rest child hchild).2.mono fun _ _ _ => trivial
  have hgrows' := (memberRest_accounts call haccount b hrest).1
  rw [reports_iff_or hgrows hgrows']
  exact .inl (((hbalanced b rfl).honest hfailed).resolve_left id)

/-- A tree that contains an error node was reported while it was bound, and so an expression that
is bound without errors contains none. -/
theorem bind_reports_of_containsError (node : SyntaxNode) :
    (∀ (σ : BindSettings) (s s' : BindState) (n : BoundNode), bind node σ s = (.ok n, s') →
      n.containsError = true → s.Reports s') ∧
    ∀ (owner : RuleModule) (w : Workspace) (config : Config) (e : BoundExpression),
      (bindExpression node owner w config).1 = .ok e → e.hasErrors = false →
      e.root.containsError = false := by
  have hreports (σ : BindSettings) (s s' : BindState) (n : BoundNode)
      (hrun : bind node σ s = (.ok n, s')) (hfailed : n.containsError = true) : s.Reports s' :=
    (((bind_accounts node hrun).2 n rfl).honest hfailed).resolve_left id
  refine ⟨hreports, fun owner w config e hbound hclean => ?_⟩
  obtain ⟨s', hrun, -, hdiagnostics⟩ := bindExpression_eq_ok hbound
  by_contra hfailed
  have herrors := (hreports _ _ _ _ hrun (by simpa using hfailed)).hasErrors
  rw [BoundExpression.hasErrors, hdiagnostics] at hclean
  exact Bool.eq_false_iff.1 hclean herrors

/-- A block keeps a statement that could not be bound: the block is no error node, and what became
of the statement was reported. -/
theorem bind_reports_of_containsError_block :
    let node : SyntaxNode := ⟨.block, none,
      [.leaf .identifier "missing" .nowhere, .leaf (.literal .integer) "1" .nowhere], .nowhere⟩
    let s := start (.empty "Rules" "rules" 0) .empty
    ∃ n s', bind node (.standard .standard) s = (.ok n, s') ∧ n.isError = false ∧
      n.containsError = true ∧ s.Reports s' := by
  intro node s
  have hcheck : answersWith (bind node) (.standard .standard) s
      (fun n _ => !n.isError && n.containsError) = true := by decide +kernel
  obtain ⟨n, s', hrun, htest⟩ := eq_ok_of_answersWith hcheck
  obtain ⟨hblock, hfailed⟩ := Bool.and_eq_true_iff.1 htest
  exact ⟨n, s', hrun, by simpa using hblock, hfailed,
    (bind_reports_of_containsError node).1 _ s s' n hrun hfailed⟩

/-- Errors were reported exactly if the tree contains an error node or a static call lost a receiver
that does. -/
theorem bind_reports_iff {node : SyntaxNode} {s s' : BindState} {n : BoundNode}
    (hrun : bind node σ s = (.ok n, s')) :
    s.Reports s' ↔ n.containsError = true ∨ During (LosesWithin σ node) s s' := by
  obtain ⟨honest, complete⟩ := (bind_accounts node hrun).2 n rfl
  constructor
  · exact fun hreports => complete (.inr hreports)
  · rintro (hfailed | ⟨t, t', hbefore, ⟨call, -, hloses⟩, hafter⟩)
    · exact (honest hfailed).resolve_left id
    · exact (hloses.reports.after hbefore.diagnostics).before hafter.diagnostics

namespace Tally

/-- A class with a static method `total`. -/
def ty : Ty := .record 0 ⟨"rules", "Tally"⟩ []

def members : Members where
  fields := []
  methods := [.native ⟨1, "total", [], .int, "Tally", .static, none⟩ fun _ _ => .ok (.int 7)]
  constructors := [Datatype.emptyConstructor 2 "Tally" ty []]

def workspace : Workspace :=
  { Workspace.empty with
    declarations := ⟨[(.declared 0, members)]⟩
    nextType := 1
    nextMethod := 3 }

def owner : RuleModule := { RuleModule.empty "Rules" "rules" 0 with types := [(ty.key, ty)] }

/-- `total` is called through an object of the class, and the block that makes the object has a
statement that cannot be bound. -/
def call : SyntaxNode := ⟨.memberCall, some "total", [⟨.block, none,
  [.leaf .identifier "missing" .nowhere,
    ⟨.new, none, [.leaf .typeName "Tally" .nowhere], .nowhere⟩], .nowhere⟩], .nowhere⟩

end Tally

/-- In a block behind a static call that lost its receiver, nothing shows what was reported. -/
theorem bind_reports_iff_block :
    let node : SyntaxNode := ⟨.block, none,
      [Tally.call, .leaf (.literal .integer) "1" .nowhere], .nowhere⟩
    let s := start Tally.owner Tally.workspace
    ∃ n s', bind node (.standard .standard) s = (.ok n, s') ∧ n.containsError = false ∧
      During (LosesWithin (.standard .standard) node) s s' := by
  intro node s
  have hcheck : answersWith (bind node) (.standard .standard) s
      (fun n s' => !n.containsError && s'.diagnostics.any (·.isError)) = true := by decide +kernel
  obtain ⟨n, s', hrun, htest⟩ := eq_ok_of_answersWith hcheck
  obtain ⟨hclean, herrors⟩ := Bool.and_eq_true_iff.1 htest
  have hshown : n.containsError = false := by simpa using hclean
  have hreports : s.Reports s' := ⟨s'.diagnostics, rfl, herrors⟩
  refine ⟨n, s', hrun, hshown, ?_⟩
  exact ((bind_reports_iff hrun).1 hreports).resolve_left (Bool.eq_false_iff.1 hshown)

/-- A call of a static method through a receiver that could not be bound throughout is bound to a
tree without error nodes. -/
theorem bind_loses_receiver :
    let s := start Tally.owner Tally.workspace
    (RuleModule.empty "Rules" "rules" 0).addType Tally.workspace.declarations Tally.ty =
      .ok (Tally.ty, Tally.owner) ∧
    ∃ n s', bind Tally.call (.standard .standard) s = (.ok n, s') ∧ s.Reports s' ∧
      n.containsError = false := by
  intro s
  refine ⟨rfl, ?_⟩
  have hcheck : answersWith (bind Tally.call) (.standard .standard) s
      (fun n s' => !n.containsError && s'.diagnostics.any (·.isError)) = true := by decide +kernel
  obtain ⟨n, s', hrun, htest⟩ := eq_ok_of_answersWith hcheck
  obtain ⟨hclean, herrors⟩ := Bool.and_eq_true_iff.1 htest
  exact ⟨n, s', hrun, ⟨s'.diagnostics, rfl, herrors⟩, by simpa using hclean⟩

end RuleExpr

import RuleExpr.Proofs.Binding.Accounting
import RuleExpr.Proofs.Binding.Answers

/-!
# Failures of the Binders

The accounts of every binder but that of member calls.  A tree shows a failure by an error node
anywhere in it, which a binder leaves in one of two ways: it reports an error and answers with an
error node, or it gives up without a report because a part of the node has failed already.  The
second way is right only if that part was reported, and this is what the accounts of the parts say.

A binder that looks only at whether its operands are error nodes still keeps the failures below
them, since it builds its node of the operands.  Calls are the exception: a static method takes no
receiver, and `callResolved_accounts` says so.  For free calls and constructors there is nothing to
drop; member calls are left to where their failures are compared with the reports.

No binder is assumed to run in a context that binding arrives at.
-/

namespace RuleExpr

open BindM BindState

/-- The node or one below it is an error node. -/
def BoundNode.Failed (n : BoundNode) : Prop := n.containsError = true

/-- One of the nodes contains an error node. -/
def AnyFailed (ns : List BoundNode) : Prop := ∃ n ∈ ns, n.Failed

/-- An error node is the node itself, or stands in one of its children. -/
theorem BoundNode.failed_iff {n : BoundNode} :
    n.Failed ↔ n.isError = true ∨ AnyFailed n.children := by
  unfold AnyFailed BoundNode.Failed
  rw [BoundNode.containsError]
  simp

theorem BoundNode.Failed.of_isError {n : BoundNode} (h : n.isError = true) : n.Failed :=
  failed_iff.2 (.inl h)

@[simp]
theorem anyFailed_nil : ¬AnyFailed [] := by simp [AnyFailed]

@[simp]
theorem anyFailed_cons {n : BoundNode} {ns : List BoundNode} :
    AnyFailed (n :: ns) ↔ n.Failed ∨ AnyFailed ns := by
  simp [AnyFailed]

@[simp]
theorem anyFailed_append {ns ms : List BoundNode} :
    AnyFailed (ns ++ ms) ↔ AnyFailed ns ∨ AnyFailed ms := by
  simp [AnyFailed, or_and_right, exists_or]

theorem failed_or_of_isError {n m : BoundNode} (h : (n.isError || m.isError) = true) :
    n.Failed ∨ m.Failed :=
  (Bool.or_eq_true_iff.1 h).imp .of_isError .of_isError

theorem AnyFailed.of_any_isError {ns : List BoundNode} (h : ns.any (·.isError) = true) :
    AnyFailed ns := by
  obtain ⟨n, hn, herror⟩ := List.any_eq_true.1 h
  exact ⟨n, hn, .of_isError herror⟩

/-- A node that is no error node fails in its children. -/
theorem failed_iff_children {n : BoundNode} (h : n.isError = false) :
    n.Failed ↔ AnyFailed n.children := by
  rw [BoundNode.failed_iff, h]
  simp

theorem failed_poisoned (node : SyntaxNode) : node.poisoned.Failed := .of_isError rfl

/-- Where a node stands in the source does not matter. -/
theorem failed_respan {n : BoundNode} {span : Span} :
    BoundNode.Failed { n with span } ↔ n.Failed := by
  rw [BoundNode.failed_iff, BoundNode.failed_iff]
  rfl

/-- A cast hides no error node and is none. -/
theorem failed_wrap {n : BoundNode} {cast : Cast} : (n.wrap cast).Failed ↔ n.Failed := by
  unfold BoundNode.wrap
  split
  · rfl
  · rw [failed_iff_children rfl]
    simp [BoundNode.children]

theorem anyFailed_wrap {ns : List BoundNode} {casts : List Cast}
    (h : casts.length = ns.length) :
    AnyFailed ((ns.zip casts).map fun (n, cast) => n.wrap cast) ↔ AnyFailed ns := by
  induction ns generalizing casts with
  | nil => simp
  | cons n ns ih =>
    cases casts with
    | nil => cases h
    | cons cast casts =>
      have hrest : casts.length = ns.length := Nat.succ.inj h
      simp only [List.zip_cons_cons, List.map_cons, anyFailed_cons, failed_wrap, ih hrest]

variable {σ : BindSettings} {lost : BindState → BindState → Prop} {p : Prop}

/-- An answer of which `F` shows a failure, if there is one. -/
def NoneOr {α : Type} (F : α → Prop) : Option α → Prop
  | some a => F a
  | none => True

theorem reportError_accounts {F : Unit → Prop} (h : F ()) (code : Code) (message : String)
    (span : Span) : Accounts σ lost p F (reportError code message span) := by
  intro s r s' hrun
  cases hrun
  refine ⟨⟨List.prefix_append _ _, rfl⟩, ?_⟩
  rintro _ ⟨⟩
  exact ⟨fun _ => .inr ⟨_, rfl, rfl⟩, fun _ => .inl h⟩

/-- Having no answer after a report shows the failure. -/
theorem reportNone_accounts {α : Type} {F : α → Prop} (code : Code) (message : String)
    (span : Span) : Accounts σ lost p (NoneOr F) (do
      reportError code message span
      return none) :=
  (reportError_accounts trivial code message span).bind fun _ => .pure Iff.rfl

theorem errorNode_accounts (code : Code) (message : String) (span : Span) :
    Accounts σ lost p BoundNode.Failed (errorNode code message span) :=
  (reportError_accounts trivial code message span).bind fun _ =>
    .pure (iff_of_true (.of_isError rfl) trivial)

theorem malformed_accounts (node : SyntaxNode) (arity : Arity) :
    Accounts σ lost p BoundNode.Failed (malformed node arity) :=
  errorNode_accounts _ _ _

/-- A node with a failed operand is an error node. -/
theorem poisoned_accounts (node : SyntaxNode) (h : p) :
    Accounts σ lost p BoundNode.Failed (pure node.poisoned) :=
  .pure (iff_of_true (failed_poisoned node) h)

/-- A node is built of its children, and fails with them. -/
theorem node_accounts {n : BoundNode} (hn : n.isError = false) (h : AnyFailed n.children ↔ p) :
    Accounts σ lost p BoundNode.Failed (pure n) :=
  .pure ((failed_iff_children hn).trans h)

/-- A warning is no failure. -/
theorem report_silent {diagnostic : Diagnostic} (h : diagnostic.isError = false) :
    Moves Silent (report diagnostic) := by
  intro settings s
  refine ⟨⟨List.prefix_append _ _, rfl⟩, ?_⟩
  have hadded : (report diagnostic settings s).2.diagnostics = s.diagnostics ++ [diagnostic] := rfl
  rw [reports_append hadded]
  simp [h]

theorem arrayOf_silent (component : Ty) : Moves Silent (arrayOf component) :=
  fun _ _ => .of_eq rfl rfl

theorem getField_silent (name : String) : Moves Silent (getField name) :=
  fun _ s => .of_eq rfl (s.program_getField name)

theorem addReceiver_silent (var : LocalVar) : Moves Silent (addReceiver var) :=
  fun _ _ => .of_eq rfl rfl

theorem reportDeprecation_silent (method : Method) (span : Span) :
    Moves Silent (reportDeprecation method span) := by
  unfold reportDeprecation
  split
  · refine Moves.read.bind fun settings => ?_
    split
    · exact report_silent rfl
    · exact .pure _
  · exact .pure _

theorem aggregateType_silent (kind : AggregateKind) (source : BoundNode) (loop : LoopVariable)
    (body : BoundNode) : Moves Silent (aggregateType kind source loop body) := by
  unfold aggregateType
  split
  · split
    · exact .pure _
    · exact arrayOf_silent _
  · exact .pure _
  · exact arrayOf_silent _

/-- A type that is not found is reported. -/
theorem resolveType_accounts (node : SyntaxNode) :
    Accounts σ lost p (NoneOr fun _ => p) (resolveType node) := by
  fun_induction resolveType node with
  | case1 text? children span =>
    refine .after (findType_moves _) fun t? => ?_
    split
    · exact .pure Iff.rfl
    · exact reportNone_accounts _ _ _
  | case2 text? element rest span ih =>
    refine ih.bind fun t? => ?_
    split
    · exact .after (arrayOf_silent _) fun _ => .pure Iff.rfl
    · exact .pure Iff.rfl
  | case3 => exact reportNone_accounts _ _ _
  | case4 => exact reportNone_accounts _ _ _

/-- A variable whose name is taken is reported. -/
theorem addVar_accounts (ns name : String) (t : Ty) (span : Span) :
    Accounts σ lost p (NoneOr fun _ => p) (addVar ns name t span) := by
  intro s r s' hrun
  unfold addVar at hrun
  rw [run_bind_of_ok (get_eq_ok.2 ⟨rfl, rfl⟩)] at hrun
  split at hrun
  · exact reportNone_accounts _ _ _ hrun
  · cases hrun
    refine ⟨Silent.grows (.of_eq rfl rfl), ?_⟩
    rintro _ ⟨⟩
    exact .of_silent (.of_eq rfl rfl)

/-- A conversion that does not exist is reported, and leaves an error node. -/
theorem coerce_accounts (b : BoundNode) (t : Ty) :
    Accounts σ lost b.Failed BoundNode.Failed (coerce b t) := by
  unfold coerce
  split
  · exact .pure Iff.rfl
  · refine .after (implicitCast_moves _ _) fun cast? => ?_
    split
    · exact .pure failed_wrap
    · exact errorNode_accounts _ _ _

theorem asCondition_accounts (b : BoundNode) :
    Accounts σ lost b.Failed BoundNode.Failed (asCondition b) := by
  unfold asCondition
  split
  · exact .pure Iff.rfl
  · split
    · exact coerce_accounts _ _
    · exact errorNode_accounts _ _ _

theorem coerceElements_accounts (component : Ty) (elements : List BoundNode) :
    Accounts σ lost (AnyFailed elements) AnyFailed (coerceElements component elements) := by
  induction elements with
  | nil => exact .pure Iff.rfl
  | cons element rest ih =>
    simp only [anyFailed_cons]
    refine (coerce_accounts element component).beside fun c => ?_
    exact ih.frame.bind fun cs => .pure anyFailed_cons

/-- Elements without a common type leave an error node. -/
theorem commonElementType_accounts (current : Ty) (elements : List BoundNode) :
    Accounts σ lost p (fun found => match found with
      | .ok _ => p
      | .error failed => failed.Failed) (commonElementType current elements) := by
  induction elements generalizing current with
  | nil => exact .pure Iff.rfl
  | cons element rest ih =>
    refine .after (commonType_moves _ _) fun common? => ?_
    split
    · exact ih _
    · exact (errorNode_accounts _ _ _).bind fun _ => .pure Iff.rfl

def Unified.Failed (u : Unified) : Prop := u.yes.Failed ∨ u.no.Failed

variable {yes no : BoundNode}

theorem coerceBoth_accounts (t : Ty) :
    Accounts σ lost (yes.Failed ∨ no.Failed) Unified.Failed (coerceBoth yes no t) :=
  (coerce_accounts yes t).beside fun _ => (coerce_accounts no t).frame.bind fun _ => .pure Iff.rfl

/-- Branches that cannot be unified keep their failures. -/
abbrev UnifiedOr (p : Prop) (u? : Option Unified) : Prop := u?.elim p Unified.Failed

theorem widenedTo_accounts (common : Option Ty) :
    Accounts σ lost (yes.Failed ∨ no.Failed) (UnifiedOr (yes.Failed ∨ no.Failed))
      (widenedTo yes no common) := by
  cases common with
  | some t =>
    rw [widenedTo, map_eq_pure_bind]
    exact (coerceBoth_accounts _).bind fun _ => .pure Iff.rfl
  | none =>
    refine .after Moves.read fun settings => ?_
    split
    · exact .pure Iff.rfl
    · exact .after (report_silent rfl) fun _ => .pure Iff.rfl

theorem widenBoth_accounts :
    Accounts σ lost (yes.Failed ∨ no.Failed) (UnifiedOr (yes.Failed ∨ no.Failed))
      (widenBoth yes no) := by
  cases h : commonSuperclass yes.ty no.ty with
  | some t =>
    rw [widenBoth_of_superclass h]
    exact widenedTo_accounts _
  | none =>
    rw [widenBoth_of_no_superclass h]
    exact .after (commonType_moves _ _) widenedTo_accounts

theorem unify_accounts :
    Accounts σ lost (yes.Failed ∨ no.Failed) (UnifiedOr (yes.Failed ∨ no.Failed))
      (unify yes no) := by
  unfold unify
  split
  · exact .pure Iff.rfl
  · split
    · exact (coerceBoth_accounts _).bind fun _ => .pure Iff.rfl
    · refine .after (implicitCast_moves _ _) fun forward => ?_
      refine .after (implicitCast_moves _ _) fun backward => ?_
      have hleft (f : Cast) : UnifiedOr (yes.Failed ∨ no.Failed) (some ⟨yes.wrap f, no, no.ty⟩) ↔
          yes.Failed ∨ no.Failed := or_congr_left failed_wrap
      have hright (b : Cast) : UnifiedOr (yes.Failed ∨ no.Failed) (some ⟨yes, no.wrap b, yes.ty⟩) ↔
          yes.Failed ∨ no.Failed := or_congr_right failed_wrap
      split
      · split
        · exact .pure (hleft _)
        · exact .pure (hright _)
      · exact .pure (hleft _)
      · exact .pure (hright _)
      · exact widenBoth_accounts

/-- A condition that failed stands for the whole conditional. -/
theorem conditional_accounts (node : SyntaxNode) (condition : BoundNode) (no? : Option BoundNode) :
    Accounts σ lost (AnyFailed (condition :: yes :: no?.toList)) BoundNode.Failed
      (conditional node condition yes no?) := by
  unfold conditional
  split
  case isTrue herror =>
    have hfailed : condition.Failed := .of_isError herror
    exact .pure (iff_of_true hfailed (anyFailed_cons.2 (.inl hfailed)))
  case isFalse =>
    split
    case isTrue hbranches =>
      apply poisoned_accounts
      apply anyFailed_cons.2
      rcases Bool.or_eq_true_iff.1 hbranches with hyes | hno
      · exact .inr (anyFailed_cons.2 (.inl (.of_isError hyes)))
      · cases no? with
        | none => cases hno
        | some no => exact .inr (anyFailed_cons.2 (.inr (.of_any_isError (by simpa using hno))))
    case isFalse =>
      cases no? with
      | none =>
        exact node_accounts rfl Iff.rfl
      | some no =>
        simp only [Option.toList, anyFailed_cons, anyFailed_nil, or_false]
        refine unify_accounts.frame.bind fun u? => ?_
        cases u? with
        | some u =>
          exact node_accounts rfl (by simp [BoundNode.children, Unified.Failed])
        | none => exact errorNode_accounts _ _ _

/-- A call without receiver of a method that needs none. -/
def StaticCall (n : BoundNode) : Prop :=
  ∃ (m : Method) (arguments : List BoundNode), m.head.isStatic = true ∧
    (n.shape = .methodCall m none arguments ∨ n.shape = .constructor m arguments)

theorem buildCall_shape {selection : Selection} {target : Option BoundNode}
    {arguments : List BoundNode} {span : Span} {n : BoundNode} {s s' : BindState}
    (hrun : buildCall selection target arguments span σ s = (.ok n, s')) :
    n.shape =
      let converted :=
        (arguments.zip selection.casts).map fun (argument, cast) => argument.wrap cast
      if selection.method.head.kind = .constructor then .constructor selection.method converted
      else .methodCall selection.method target converted := by
  obtain ⟨u, s₁, -, hpure⟩ := bind_eq_ok.1 hrun
  obtain ⟨rfl, rfl⟩ := pure_eq_ok.1 hpure
  rfl

/-- A constructor is called on nothing, so that no target gets lost. -/
theorem buildCall_accounts {selection : Selection} {target : Option BoundNode}
    {arguments : List BoundNode} (span : Span)
    (hlength : selection.casts.length = arguments.length)
    (htarget : selection.method.head.kind = .constructor → target = none) :
    Accounts σ lost (AnyFailed (target.toList ++ arguments)) BoundNode.Failed
      (buildCall selection target arguments span) := by
  refine .after (reportDeprecation_silent _ _) fun _ => .pure ?_
  by_cases hkind : selection.method.head.kind = .constructor
  · rw [if_pos hkind, htarget hkind, failed_iff_children rfl]
    exact anyFailed_wrap hlength
  · rw [if_neg hkind, failed_iff_children rfl]
    simp only [BoundNode.children, anyFailed_append, anyFailed_wrap hlength]

/-- The call of a selected method fails with its arguments, and with its receiver unless it drops
it. -/
theorem selected_accounts {selection : Selection} {arguments : List BoundNode}
    (receiver : Option BoundNode) (span : Span)
    (hlength : selection.casts.length = arguments.length) :
    Accounts σ lost (AnyFailed receiver.toList ∨ AnyFailed arguments)
      (fun n => n.Failed ∨ AnyFailed receiver.toList ∧ StaticCall n)
      (buildCall selection (if selection.method.head.isStatic then none else receiver) arguments
        span) := by
  by_cases hstatic : selection.method.head.isStatic = true
  · rw [if_pos hstatic]
    -- A static method drops the receiver, and with it a failure of the receiver.
    have hcall : Accounts σ lost (AnyFailed arguments) BoundNode.Failed
        (buildCall selection none arguments span) :=
      buildCall_accounts span hlength fun _ => rfl
    apply hcall.frame.of_answers
    rintro n ⟨s, s', hrun⟩
    have hcalls : StaticCall n := by
      have hshape := buildCall_shape hrun
      split at hshape
      · exact ⟨selection.method, _, hstatic, .inr hshape⟩
      · exact ⟨selection.method, _, hstatic, .inl hshape⟩
    rw [or_comm, and_iff_left hcalls]
  · rw [if_neg hstatic]
    have hmember : selection.method.head.kind ≠ .constructor := by
      intro hkind
      simp [MethodHead.isStatic, hkind] at hstatic
    have hcall : Accounts σ lost (AnyFailed (receiver.toList ++ arguments)) BoundNode.Failed
        (buildCall selection receiver arguments span) :=
      buildCall_accounts span hlength fun hkind => absurd hkind hmember
    rw [← propext anyFailed_append]
    apply hcall.of_answers
    rintro n ⟨s, s', hrun⟩
    refine ⟨.inl, ?_⟩
    rintro (hfailed | ⟨-, m, called, hm, hshape⟩)
    · exact hfailed
    · rw [buildCall_shape hrun, if_neg hmember] at hshape
      rcases hshape with hshape | hshape <;> cases hshape
      exact absurd hm hstatic

theorem ambiguous_accounts (methods : List Method) (name : String) (arguments : List Ty)
    (span : Span) : Accounts σ lost p BoundNode.Failed (ambiguous methods name arguments span) :=
  errorNode_accounts _ _ _

/-- Resolution reports nothing, and a selection has a conversion for every argument. -/
theorem resolve_accounts {β : Type} {G : β → Prop} {candidates : List Method} {name : String}
    {arguments : List BoundNode} {f : Resolution → BindM β}
    (hfound : ∀ selection : Selection, selection.casts.length = arguments.length →
      Accounts σ lost p G (f (.found selection)))
    (hnone : Accounts σ lost p G (f .notFound))
    (hmany : ∀ methods, Accounts σ lost p G (f (.ambiguous methods))) :
    Accounts σ lost p G (BindM.resolve candidates name (arguments.map (·.ty)) >>= f) := by
  apply (Accounts.silent (resolve_moves _ _ _)).bind_of_run
  rintro resolution ⟨s, s', hrun⟩
  cases resolution with
  | found selection =>
    have hselects := Overload.selects_of_resolve (resolve_eq_ok hrun).1
    apply hfound
    rw [hselects.converts.length_eq, List.length_map]
  | notFound => exact hnone
  | ambiguous methods => exact hmany methods

/-- What failed in the receiver is lost where a static method is called on it, and only there. -/
theorem callResolved_accounts (candidates : List Method) (name : String)
    (receiver : Option BoundNode) (arguments : List BoundNode) (span : Span) :
    Accounts σ lost (AnyFailed receiver.toList ∨ AnyFailed arguments)
      (fun n => n.Failed ∨ AnyFailed receiver.toList ∧ StaticCall n)
      (callResolved candidates name receiver arguments span) := by
  have herror {code : Code} {message : String} :
      Accounts σ lost (AnyFailed receiver.toList ∨ AnyFailed arguments)
        (fun n => n.Failed ∨ AnyFailed receiver.toList ∧ StaticCall n)
        (errorNode code message span) := by
    apply (errorNode_accounts code message span).of_answers
    rintro n ⟨s, s', hrun⟩
    have hfailed : n.Failed := .of_isError (errorNode_reports hrun).1
    exact iff_of_true hfailed (.inl hfailed)
  apply resolve_accounts
  · exact fun selection hlength => selected_accounts receiver span hlength
  · exact herror
  · exact fun methods => herror

theorem construct_accounts (t : Ty) (arguments : List BoundNode) (span : Span) :
    Accounts σ lost (AnyFailed arguments) BoundNode.Failed (construct t arguments span) := by
  refine .after Moves.get fun s => ?_
  apply resolve_accounts
  · exact fun selection hlength => buildCall_accounts span hlength fun _ => rfl
  · exact errorNode_accounts _ _ _
  · exact fun methods => ambiguous_accounts _ _ _ _

theorem coerceAll_accounts (operands : List BoundNode) (target : Ty) :
    Accounts σ lost (AnyFailed operands) AnyFailed (coerceAll operands target) := by
  apply (Accounts.silent (castsTo_moves _ _)).bind_of_run
  rintro casts? ⟨s, s', hrun⟩
  cases casts? with
  | none => exact .pure Iff.rfl
  | some casts =>
    have hlength := (castsTo_eq_ok hrun casts rfl).length_eq
    exact .pure (anyFailed_wrap hlength.symm)

theorem liftOperands_accounts (methodName : String) (operands : List BoundNode) :
    Accounts σ lost (AnyFailed operands) AnyFailed (liftOperands methodName operands) := by
  unfold liftOperands
  split
  · exact coerceAll_accounts _ _
  · split
    · split
      · exact coerceAll_accounts _ _
      · exact .pure Iff.rfl
    · exact .pure Iff.rfl

theorem operatorCall_accounts (methodName symbol : String) (operands : List BoundNode)
    (span : Span) :
    Accounts σ lost (AnyFailed operands) BoundNode.Failed
      (operatorCall methodName symbol operands span) := by
  refine (liftOperands_accounts _ _).bind fun lifted => ?_
  refine .after (findMethods_moves _) fun candidates => ?_
  apply resolve_accounts
  · exact fun selection hlength => buildCall_accounts span hlength fun _ => rfl
  · exact errorNode_accounts _ _ _
  · exact fun methods => ambiguous_accounts _ _ _ _

theorem bindLiteral_accounts (node : SyntaxNode) (kind : LiteralKind) :
    Accounts σ lost False BoundNode.Failed (bindLiteral node kind) := by
  unfold bindLiteral
  split
  · exact node_accounts rfl (by simp [BoundNode.children])
  · exact errorNode_accounts _ _ _

theorem bindIdentifier_accounts (node : SyntaxNode) :
    Accounts σ lost False BoundNode.Failed (bindIdentifier node) := by
  unfold bindIdentifier
  refine .after (lookupVar_moves _) fun var? => ?_
  split
  · exact node_accounts rfl (by simp [BoundNode.children])
  · refine .after Moves.get fun s => ?_
    split
    · have hreceiver (var : LocalVar) :
          ¬BoundNode.Failed ⟨.localVar var.name var.slot, var.ty, node.span⟩ := by
        rw [failed_iff_children rfl]
        exact anyFailed_nil
      exact node_accounts rfl (by simp [BoundNode.children, hreceiver])
    · refine .after (getField_silent _) fun field? => ?_
      split
      · exact node_accounts rfl (by simp [BoundNode.children])
      · exact errorNode_accounts _ _ _

theorem accessField_accounts (node : SyntaxNode) (target : BoundNode) :
    Accounts σ lost target.Failed BoundNode.Failed (accessField node target) := by
  unfold accessField
  split
  case isTrue herror => exact poisoned_accounts node (.of_isError herror)
  case isFalse =>
    split
    · exact node_accounts rfl (by simp [BoundNode.children])
    · refine .after (fieldOf_moves _ _) fun field? => ?_
      split
      · exact node_accounts rfl (by simp [BoundNode.children])
      · exact errorNode_accounts _ _ _

theorem accessElement_accounts (node : SyntaxNode) (array index : BoundNode) :
    Accounts σ lost (array.Failed ∨ index.Failed) BoundNode.Failed
      (accessElement node array index) := by
  unfold accessElement
  split
  case isTrue herror =>
    exact poisoned_accounts node (failed_or_of_isError herror)
  case isFalse =>
    split
    · exact errorNode_accounts _ _ _
    · refine (coerce_accounts index .int).frame.bind fun index => ?_
      split
      case isTrue herror => exact poisoned_accounts node (.inr (.of_isError herror))
      case isFalse => exact node_accounts rfl (by simp [BoundNode.children])

theorem castTo_accounts (node : SyntaxNode) (operand : BoundNode) (target : Ty) :
    Accounts σ lost operand.Failed BoundNode.Failed (castTo node operand target) := by
  unfold castTo
  split
  case isTrue herror => exact poisoned_accounts node (.of_isError herror)
  case isFalse =>
    split
    · exact .pure Iff.rfl
    · refine .after (castBetween_moves _ _) fun cast? => ?_
      split
      · exact .pure (failed_respan.trans failed_wrap)
      · exact errorNode_accounts _ _ _

theorem buildArray_accounts (node : SyntaxNode) (elements : List BoundNode) (common : Ty) :
    Accounts σ lost (AnyFailed elements) BoundNode.Failed (buildArray node elements common) := by
  refine (coerceElements_accounts _ elements).bind fun cs => ?_
  exact .after (arrayOf_silent _) fun t => node_accounts rfl Iff.rfl

/-- Closing a scope touches no report. -/
theorem inScope_accounts {α : Type} {F : α → Prop} {act : BindM α}
    (h : Accounts σ lost p F act) : Accounts σ lost p F (inScope act) := by
  intro s r s' hrun
  have hopen : s.Silent s.pushScope := .of_eq rfl rfl
  match hact : act σ s.pushScope with
  | (r₁, s₁) =>
    unfold inScope at hrun
    rw [hact] at hrun
    cases hrun
    exact h.around hopen hact (closeScope_silent s₁)

/-- Beyond the limit there is one report more, and an error node. -/
theorem nested_accounts (span : Span) {act : BindM BoundNode}
    (h : Accounts σ lost p BoundNode.Failed act) :
    Accounts σ lost p BoundNode.Failed (nested span act) := by
  intro s r s' hrun
  unfold nested at hrun
  rw [run_bind_of_ok (read_eq_ok.2 ⟨rfl, rfl⟩), run_bind_of_ok (get_eq_ok.2 ⟨rfl, rfl⟩)] at hrun
  split at hrun
  · have hdeeper : s.Silent { s with depth := s.depth + 1 } := .of_eq rfl rfl
    match hact : act σ { s with depth := s.depth + 1 } with
    | (r₁, s₁) =>
      dsimp only at hrun
      rw [hact] at hrun
      cases hrun
      exact h.around hdeeper hact (.of_eq rfl rfl)
  · exact errorNode_accounts _ _ _ hrun

/-- The actions that bind the children account for their failures. -/
def ChildrenAccount (σ : BindSettings) (lost : BindState → BindState → Prop)
    (children : List Child) : Prop :=
  ∀ child ∈ children, Accounts σ lost False BoundNode.Failed child.bind

namespace ChildrenAccount

variable {child : Child} {rest : List Child}

theorem head (h : ChildrenAccount σ lost (child :: rest)) :
    Accounts σ lost False BoundNode.Failed child.bind :=
  h child List.mem_cons_self

theorem tail (h : ChildrenAccount σ lost (child :: rest)) : ChildrenAccount σ lost rest :=
  fun other hmem => h other (List.mem_cons_of_mem _ hmem)

end ChildrenAccount

theorem bindAll_accounts {children : List Child} (h : ChildrenAccount σ lost children) :
    Accounts σ lost False AnyFailed (bindAll children) := by
  induction children with
  | nil => exact .pure (by simp)
  | cons child rest ih =>
    refine h.head.bind fun b => ?_
    exact (ih h.tail).also.bind fun bs => .pure anyFailed_cons

theorem bindCondition_accounts {child : Child} {rest : List Child}
    (h : ChildrenAccount σ lost (child :: rest)) :
    Accounts σ lost False BoundNode.Failed (bindCondition child) :=
  h.head.bind fun b => asCondition_accounts b

/-! ## Binders of strict nodes -/

theorem bindFieldAccess_accounts (node : SyntaxNode) {children : List Child}
    (h : ChildrenAccount σ lost children) :
    Accounts σ lost False BoundNode.Failed (bindFieldAccess node children) := by
  unfold bindFieldAccess
  split
  · exact h.head.bind fun target => accessField_accounts node target
  · exact malformed_accounts _ _

theorem bindIndex_accounts (node : SyntaxNode) {children : List Child}
    (h : ChildrenAccount σ lost children) :
    Accounts σ lost False BoundNode.Failed (bindIndex node children) := by
  unfold bindIndex
  split
  · refine h.head.bind fun array => h.tail.head.also.bind fun index => ?_
    exact accessElement_accounts node array index
  · exact malformed_accounts _ _

theorem bindMethodCall_accounts (node : SyntaxNode) {children : List Child}
    (h : ChildrenAccount σ lost children) :
    Accounts σ lost False BoundNode.Failed (bindMethodCall node children) := by
  refine (bindAll_accounts h).bind fun arguments => ?_
  split
  case isTrue herror => exact poisoned_accounts node (.of_any_isError herror)
  case isFalse =>
    refine .after (findMethods_moves _) fun candidates => ?_
    have hcall : Accounts σ lost _ _
        (callResolved candidates node.text none arguments node.span) :=
      callResolved_accounts _ _ _ _ _
    exact hcall.congr (by simp) (by simp)

theorem bindNew_accounts (node : SyntaxNode) {children : List Child}
    (h : ChildrenAccount σ lost children) :
    Accounts σ lost False BoundNode.Failed (bindNew node children) := by
  unfold bindNew
  split
  · exact malformed_accounts _ _
  · refine (resolveType_accounts _).bind fun t? => ?_
    refine (bindAll_accounts h.tail).also.bind fun arguments => ?_
    split
    · exact poisoned_accounts node (.inl trivial)
    · split
      case isTrue herror => exact poisoned_accounts node (.inr (.of_any_isError herror))
      case isFalse => exact (construct_accounts _ _ _).congr (by simp [NoneOr]) fun _ => Iff.rfl

theorem bindCast_accounts (node : SyntaxNode) {children : List Child}
    (h : ChildrenAccount σ lost children) :
    Accounts σ lost False BoundNode.Failed (bindCast node children) := by
  unfold bindCast
  split
  · refine (resolveType_accounts _).bind fun target? => ?_
    refine h.tail.head.also.bind fun operand => ?_
    split
    · exact (castTo_accounts _ _ _).congr (by simp [NoneOr]) fun _ => Iff.rfl
    · exact poisoned_accounts node (.inl trivial)
  · exact malformed_accounts _ _

theorem bindNewArray_accounts (node : SyntaxNode) {children : List Child}
    (h : ChildrenAccount σ lost children) :
    Accounts σ lost False BoundNode.Failed (bindNewArray node children) := by
  unfold bindNewArray
  split
  · refine (resolveType_accounts _).bind fun element? => ?_
    refine h.tail.head.also.bind fun size => ?_
    split
    · exact poisoned_accounts node (.inl trivial)
    · split
      case isTrue herror => exact poisoned_accounts node (.inr (.of_isError herror))
      case isFalse =>
        refine (coerce_accounts size .int).frame.bind fun size => ?_
        split
        case isTrue herror => exact poisoned_accounts node (.inr (.of_isError herror))
        case isFalse =>
          exact .after (arrayOf_silent _) fun t =>
            node_accounts rfl (by simp [BoundNode.children, NoneOr])
  · exact malformed_accounts _ _

theorem bindArrayInit_accounts (node : SyntaxNode) {children : List Child}
    (h : ChildrenAccount σ lost children) :
    Accounts σ lost False BoundNode.Failed (bindArrayInit node children) := by
  refine (bindAll_accounts h).bind fun elements => ?_
  split
  case isTrue herror => exact poisoned_accounts node (.of_any_isError herror)
  case isFalse =>
    split
    · exact buildArray_accounts _ _ _
    · refine (commonElementType_accounts _ _).bind fun found => ?_
      split
      · exact buildArray_accounts _ _ _
      · exact .pure Iff.rfl

theorem bindLogical_accounts (node : SyntaxNode) (op : BinaryOp) {children : List Child}
    (h : ChildrenAccount σ lost children) :
    Accounts σ lost False BoundNode.Failed (bindLogical node op children) := by
  unfold bindLogical
  split
  · refine (bindCondition_accounts h).bind fun left => ?_
    refine (bindCondition_accounts h.tail).also.bind fun right => ?_
    split
    case isTrue herror =>
      exact poisoned_accounts node (failed_or_of_isError herror)
    case isFalse =>
      by_cases hop : op = .or
      · rw [if_pos hop]
        exact node_accounts rfl (by simp [BoundNode.children])
      · rw [if_neg hop]
        exact node_accounts rfl (by simp [BoundNode.children])
  · exact malformed_accounts _ _

theorem bindBinary_accounts (node : SyntaxNode) (op : BinaryOp) {children : List Child}
    (h : ChildrenAccount σ lost children) :
    Accounts σ lost False BoundNode.Failed (bindBinary node op children) := by
  unfold bindBinary
  split
  · exact bindLogical_accounts _ _ h
  · split
    · refine h.head.bind fun left => h.tail.head.also.bind fun right => ?_
      split
      case isTrue herror =>
        exact poisoned_accounts node (failed_or_of_isError herror)
      case isFalse =>
        exact (operatorCall_accounts _ _ [left, right] _).congr (by simp) fun _ => Iff.rfl
    · exact malformed_accounts _ _

theorem bindUnary_accounts (node : SyntaxNode) (op : UnaryOp) {children : List Child}
    (h : ChildrenAccount σ lost children) :
    Accounts σ lost False BoundNode.Failed (bindUnary node op children) := by
  unfold bindUnary
  split
  · refine h.head.bind fun operand => ?_
    split
    case isTrue herror => exact poisoned_accounts node (.of_isError herror)
    case isFalse =>
      exact (operatorCall_accounts _ _ [operand] _).congr (by simp) fun _ => Iff.rfl
  · exact malformed_accounts _ _

theorem bindConditional_accounts (node : SyntaxNode) {children : List Child}
    (h : ChildrenAccount σ lost children) :
    Accounts σ lost False BoundNode.Failed (bindConditional node children) := by
  unfold bindConditional
  split
  · refine (bindCondition_accounts h).bind fun condition => ?_
    refine h.tail.head.also.bind fun yes => h.tail.tail.head.also.bind fun no => ?_
    have hparts : (condition.Failed ∨ yes.Failed) ∨ no.Failed ↔
        AnyFailed (condition :: yes :: (some no).toList) := by simp [or_assoc]
    exact (conditional_accounts node condition (some no)).congr hparts.symm fun _ => Iff.rfl
  · split
    · exact malformed_accounts _ _
    · split
      · refine (bindCondition_accounts h).bind fun condition => ?_
        refine h.tail.head.also.bind fun yes => ?_
        exact (conditional_accounts node condition none).congr (by simp) fun _ => Iff.rfl
      · exact malformed_accounts _ _

theorem bindBlock_accounts (node : SyntaxNode) {children : List Child}
    (h : ChildrenAccount σ lost children) :
    Accounts σ lost False BoundNode.Failed (bindBlock node children) :=
  (inScope_accounts (bindAll_accounts h)).bind fun _ => node_accounts rfl Iff.rfl

theorem declare_accounts (node : SyntaxNode) (t : Ty) (initial : BoundNode) :
    Accounts σ lost initial.Failed BoundNode.Failed (declare node t initial) := by
  refine (coerce_accounts initial t).bind fun initial => ?_
  split
  case isTrue herror => exact poisoned_accounts node (.of_isError herror)
  case isFalse =>
    refine (addVar_accounts _ _ _ _).bind fun var? => ?_
    split
    · exact node_accounts rfl (by simp [BoundNode.children, NoneOr])
    · exact poisoned_accounts node trivial

/-- Without a type or a name of its own, a declaration is poisoned. -/
theorem bindVarDecl_accounts (node : SyntaxNode) {children : List Child}
    (h : ChildrenAccount σ lost children) :
    Accounts σ lost False BoundNode.Failed (bindVarDecl node children) := by
  unfold bindVarDecl
  split
  · refine (resolveType_accounts _).bind fun declared? => ?_
    refine h.tail.head.also.bind fun initial => ?_
    split
    · exact (declare_accounts _ _ _).congr (by simp [NoneOr]) fun _ => Iff.rfl
    · exact poisoned_accounts node (.inl trivial)
  · exact malformed_accounts _ _

theorem declareLoopVar_accounts (node : SyntaxNode) (element declared : Ty) :
    Accounts σ lost p (NoneOr fun _ => p) (declareLoopVar node element declared) := by
  have hadd (cast : Option Cast) : Accounts σ lost p (NoneOr fun _ : LoopVariable => p) (do
      return (← addVar LocalVar.localNs node.text declared node.span).map (⟨·, cast⟩)) :=
    (addVar_accounts _ _ _ _).bind fun var? => by cases var? <;> exact .pure Iff.rfl
  unfold declareLoopVar
  split
  · exact hadd none
  · refine .after (implicitCast_moves _ _) fun cast? => ?_
    split
    · exact hadd _
    · exact reportNone_accounts _ _ _

theorem namedLoopVar_accounts (node : SyntaxNode) (element : Ty) :
    Accounts σ lost p (NoneOr fun _ => p) (namedLoopVar node element) := by
  unfold namedLoopVar
  split
  · have hdeclared : Accounts σ lost p (NoneOr fun _ => p) (declaredLoopType node element) := by
      unfold declaredLoopType
      split
      · exact resolveType_accounts _
      · exact .pure Iff.rfl
    refine hdeclared.bind fun declared? => ?_
    split
    · exact declareLoopVar_accounts _ _ _
    · exact .pure Iff.rfl
  · exact reportNone_accounts _ _ _

theorem hiddenLoopVar_accounts (body : SyntaxNode) (element : Ty) :
    Accounts σ lost p (NoneOr fun _ => p) (hiddenLoopVar body element) := by
  refine .after Moves.get fun s => .after Moves.read fun settings => ?_
  refine (addVar_accounts _ _ _ _).bind fun var? => ?_
  split
  · exact .after (addReceiver_silent _) fun _ => .pure Iff.rfl
  · exact .pure Iff.rfl

/-- A body that failed is not kept, and the loop is given up with it. -/
theorem bindLoopBody_accounts (kind : AggregateKind) {body : Child}
    (hbody : Accounts σ lost False BoundNode.Failed body.bind) (loop? : Option LoopVariable) :
    Accounts σ lost (NoneOr (fun _ => False) loop?) (NoneOr fun loop => loop.2.Failed)
      (bindLoopBody kind body loop?) := by
  have hanswer (loop : LoopVariable) (bound : BoundNode) :
      Accounts σ lost bound.Failed (NoneOr fun loop => loop.2.Failed)
        (pure (if bound.isError then none else some (loop, bound))) := by
    split
    case isTrue herror => exact .pure (iff_of_true trivial (.of_isError herror))
    case isFalse => exact .pure Iff.rfl
  cases loop? with
  | none => exact .pure Iff.rfl
  | some loop =>
    rw [bindLoopBody]
    split
    · refine Accounts.bind ?_ (hanswer _)
      exact hbody.bind fun b => asCondition_accounts b
    · exact hbody.bind (hanswer _)

theorem bindLoop_accounts (kind : AggregateKind) (element : Ty) (var? : Option Child)
    {body : Child} (hbody : Accounts σ lost False BoundNode.Failed body.bind) :
    Accounts σ lost False (NoneOr fun loop => loop.2.Failed)
      (bindLoop kind element var? body) := by
  have hrest := bindLoopBody_accounts kind hbody
  cases var? with
  | some var =>
    rw [bindLoop_some]
    exact (namedLoopVar_accounts _ _).bind hrest
  | none =>
    rw [bindLoop_none]
    exact (hiddenLoopVar_accounts _ _).bind hrest

/-- A loop that was given up leaves a poisoned node. -/
theorem bindAggregateOver_accounts (node : SyntaxNode) (kind : AggregateKind) {source body : Child}
    (var? : Option Child) (hsource : Accounts σ lost False BoundNode.Failed source.bind)
    (hbody : Accounts σ lost False BoundNode.Failed body.bind) :
    Accounts σ lost False BoundNode.Failed (bindAggregateOver node kind source var? body) := by
  refine hsource.bind fun source => ?_
  split
  case isTrue herror => exact poisoned_accounts node (.of_isError herror)
  case isFalse =>
    split
    · exact errorNode_accounts _ _ _
    · refine (inScope_accounts (bindLoop_accounts kind _ var? hbody)).also.bind fun loop? => ?_
      split
      · exact poisoned_accounts node (.inr trivial)
      · refine .after (aggregateType_silent _ _ _ _) fun t => ?_
        exact node_accounts rfl (by simp [BoundNode.children, NoneOr])

theorem bindAggregate_accounts (node : SyntaxNode) (kind : AggregateKind) {children : List Child}
    (h : ChildrenAccount σ lost children) :
    Accounts σ lost False BoundNode.Failed (bindAggregate node kind children) := by
  unfold bindAggregate
  split
  · exact bindAggregateOver_accounts _ _ _ h.head h.tail.head
  · exact bindAggregateOver_accounts _ _ _ h.head h.tail.tail.head
  · exact malformed_accounts _ _

end RuleExpr

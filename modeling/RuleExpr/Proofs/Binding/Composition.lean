import RuleExpr.Proofs.Binding.Steps
import RuleExpr.Proofs.Cast.Nearest
import RuleExpr.Proofs.Overload
import Mathlib.Data.List.Forall2

/-!
# Properties of Binding That Follow From Its Parts

Binders are put together from few kinds of parts: steps that only read or extend the context,
questions to the settings and to the registry, reports, and scopes.  `BindM.Compositional Φ` says
of a relation `Φ` between actions that it holds of all these parts and carries over to actions one
after the other.  Such a relation holds between two binders of one node whenever it holds between
the actions that bind the children, so a fact about whole trees needs the parts and the nesting of
nodes alone.

The parts are told apart by what they may depend on.  No binder looks at the reports or at the
nesting level, and none but the guard around a node looks at the nesting limit or reports that it
is reached.
-/

namespace RuleExpr

namespace BindM

variable {α β : Type}

/-- A step that answers from the context. -/
def step (g : BindState → β × BindState) : BindM β := fun _ s => (.ok (g s).1, (g s).2)

/-- A step that does not look at the reports and leaves them and the nesting level as they are. -/
def Reportless (g : BindState → β × BindState) : Prop :=
  ∀ s diagnostics, g { s with diagnostics } = ((g s).1, { (g s).2 with diagnostics }) ∧
    (g s).2.depth = s.depth

theorem Reportless.diagnostics_eq {g : BindState → β × BindState} (hg : Reportless g)
    (s : BindState) : (g s).2.diagnostics = s.diagnostics :=
  congrArg (·.2.diagnostics) (hg s s.diagnostics).1

/-- What depends neither on the nesting limit nor on whether deprecated methods are reported. -/
def Unguarded (f : BindSettings → β) : Prop :=
  ∀ σ maxBindDepth reportDeprecations,
    f { σ with config := { σ.config with maxBindDepth, reportDeprecations } } = f σ

/-- A relation between actions that holds of the parts of binders and carries over to actions one
after the other. -/
structure Compositional (Φ : ∀ {α : Type}, BindM α → BindM α → Prop) : Prop where
  pure {α : Type} (a : α) : Φ (Pure.pure a) (Pure.pure a)
  bind {α β : Type} {x x' : BindM α} {f f' : α → BindM β} (hx : Φ x x')
    (hf : ∀ a, Φ (f a) (f' a)) : Φ (x >>= f) (x' >>= f')
  step {β : Type} (g : BindState → β × BindState) (hg : Reportless g) : Φ (step g) (step g)
  read {β : Type} {f : BindSettings → BindM β} (hf : Unguarded f) (h : ∀ σ, Φ (f σ) (f σ)) :
    Φ (MonadReader.read >>= f) (MonadReader.read >>= f)
  query {β : Type} (q : Registry → Except CastError β)
    (hq : ∀ r : Registry, r.Trusts → ∀ e, q r = .error e → e = .overflow) :
    Φ (do ofCast (q (← MonadReader.read).registry)) (do ofCast (q (← MonadReader.read).registry))
  report (d : Diagnostic) (hd : d.code ≠ .nestingTooDeep) : Φ (report d) (report d)
  deprecation (method : Method) (span : Span) :
    Φ (reportDeprecation method span) (reportDeprecation method span)
  inScope {α : Type} {x x' : BindM α} (hx : Φ x x') : Φ (inScope x) (inScope x')

/-- A deprecated method is warned of, or nothing is done. -/
theorem reportDeprecation_cases (method : Method) (span : Span) (σ : BindSettings) :
    (∀ s, reportDeprecation method span σ s = (.ok (), s)) ∨
      ∃ d, d.code = .deprecatedMethod ∧ ∀ s, reportDeprecation method span σ s = report d σ s := by
  unfold reportDeprecation
  cases method.head.deprecated with
  | none => exact .inl fun _ => rfl
  | some note =>
    cases hreport : σ.config.reportDeprecations with
    | false =>
      refine .inl fun s => ?_
      change (if σ.config.reportDeprecations then _ else _ : BindM Unit) σ s = _
      rw [hreport]
      rfl
    | true =>
      refine .inr ⟨.ofWarning .deprecatedMethod
        ("'" ++ method.signature ++ "' is deprecated: " ++ note) (some span), rfl, fun s => ?_⟩
      change (if σ.config.reportDeprecations then _ else _ : BindM Unit) σ s = _
      rw [hreport]
      rfl

end BindM

/-- Overloads are chosen by implicit casts, which fail as the registry does. -/
theorem Registry.Trusts.resolve {r : Registry} (h : r.Trusts) {candidates : List Method}
    {name : String} {arguments : List Ty} {e : CastError}
    (hfails : Overload.resolve r candidates name arguments = .error e) : e = .overflow := by
  obtain ⟨-, -, argument, -, param, -, hcast⟩ := Overload.resolve_eq_error hfails
  exact h.implicitCast hcast

namespace BindM.Compositional

variable {Φ : ∀ {α : Type}, BindM α → BindM α → Prop} (h : Compositional Φ)

include h

theorem map {α β : Type} {x x' : BindM α} (hx : Φ x x') (f : α → β) : Φ (f <$> x) (f <$> x') := by
  rw [map_eq_pure_bind, map_eq_pure_bind]
  exact h.bind hx fun a => h.pure (f a)

/-- An error node may report anything but the limit of nesting, which is left to `nested`. -/
theorem errorNode (code : Code) (message : String) (span : Span) (hcode : code ≠ .nestingTooDeep) :
    Φ (errorNode code message span) (errorNode code message span) :=
  h.bind (h.report _ hcode) fun _ => h.pure _

theorem malformed (node : SyntaxNode) (arity : Arity) :
    Φ (malformed node arity) (malformed node arity) :=
  h.errorNode _ _ _ (by decide)

/-- A report in place of an answer. -/
theorem reportNone {α : Type} (code : Code) (message : String) (span : Span)
    (hcode : code ≠ .nestingTooDeep) :
    Φ (do reportError code message span; return (none : Option α))
      (do reportError code message span; return (none : Option α)) :=
  h.bind (h.report _ hcode) fun _ => h.pure _

/-- A part that looks at the context, but not at its reports. -/
theorem look {α : Type} {f : BindState → BindM α}
    (hf : ∀ s diagnostics, f { s with diagnostics } = f s) (h' : ∀ s, Φ (f s) (f s)) :
    Φ (MonadState.get >>= f) (MonadState.get >>= f) := by
  have hlook : MonadState.get >>= f =
      BindM.step (fun s => ({ s with diagnostics := [] }, s)) >>= f := by
    funext σ s
    exact congrFun (congrFun (hf s []).symm σ) s
  rw [hlook]
  exact h.bind (h.step _ fun _ _ => ⟨rfl, rfl⟩) h'

theorem lookupVar (name : String) : Φ (lookupVar name) (lookupVar name) :=
  h.look (fun _ _ => rfl) fun _ => h.read (fun _ _ _ => rfl) fun _ => h.pure _

theorem findType (name : String) : Φ (findType name) (findType name) :=
  h.look (fun _ _ => rfl) fun _ => h.pure _

theorem fieldOf (t : Ty) (name : String) : Φ (fieldOf t name) (fieldOf t name) :=
  h.look (fun _ _ => rfl) fun _ => h.pure _

theorem findMethods (name : String) : Φ (findMethods name) (findMethods name) :=
  h.look (fun _ _ => rfl) fun _ => h.pure _

theorem arrayOf (component : Ty) : Φ (arrayOf component) (arrayOf component) :=
  h.step (fun s =>
    let interned := s.workspace.arrayOf s.owner.space component
    (interned.1, { s with workspace := interned.2 })) fun _ _ => ⟨rfl, rfl⟩

/-- The module may come to remember its merged fields, which is a step. -/
theorem getField (name : String) : Φ (getField name) (getField name) :=
  h.step (fun s =>
    let found := s.owner.getField name
    (found.1, { s with owner := found.2 })) fun _ _ => ⟨rfl, rfl⟩

/-- Whether the name is taken is read off the scopes, and the variable is a step. -/
theorem addVar (ns name : String) (t : Ty) (span : Span) :
    Φ (addVar ns name t span) (addVar ns name t span) := by
  -- The step that declares the variable reads the context again, which has not changed since.
  have hparts : BindM.addVar ns name t span = get >>= fun s =>
      if s.declaredHere ns name then do
        reportError .duplicateVariable
          ("variable '" ++ name ++ "' is already defined in this scope") span
        return none
      else
        BindM.step (declareVar ns name t) := by
    funext σ s
    rw [addVar_eq_ite]
    change _ = (if s.declaredHere ns name then _ else _ : BindM _) σ s
    split <;> rfl
  rw [hparts]
  refine h.look (fun _ _ => rfl) fun s => ?_
  split
  · exact h.reportNone _ _ _ (by decide)
  · exact h.step _ fun _ _ => ⟨rfl, rfl⟩

theorem addReceiver (var : LocalVar) : Φ (addReceiver var) (addReceiver var) :=
  h.step (fun s => ((), { s with receivers := s.receivers ++ [(s.scopeDepth, var)] }))
    fun _ _ => ⟨rfl, rfl⟩

theorem castBetween (source target : Ty) :
    Φ (castBetween source target) (castBetween source target) :=
  h.query (fun r => r.cast source target) fun _ hr _ hfails => hr hfails

theorem implicitCast (source target : Ty) :
    Φ (implicitCast source target) (implicitCast source target) :=
  h.query (fun r => r.implicitCast source target) fun _ hr _ hfails => hr.implicitCast hfails

theorem commonType (a b : Ty) : Φ (commonType a b) (commonType a b) :=
  h.query (fun r => r.commonType a b) fun _ hr _ hfails => hr.commonType hfails

theorem resolve (candidates : List Method) (name : String) (arguments : List Ty) :
    Φ (resolve candidates name arguments) (resolve candidates name arguments) :=
  h.query (fun r => Overload.resolve r candidates name arguments) fun _ hr _ hfails =>
    hr.resolve hfails

theorem coerce (node : BoundNode) (target : Ty) : Φ (coerce node target) (coerce node target) := by
  unfold BindM.coerce
  split
  · exact h.pure _
  · refine h.bind (h.implicitCast _ _) fun cast? => ?_
    split
    · exact h.pure _
    · exact h.errorNode _ _ _ (by decide)

/-- Operands are looked at from the left, up to the first that cannot be converted. -/
theorem castsTo (target : Ty) (operands : List BoundNode) :
    Φ (castsTo target operands) (castsTo target operands) := by
  induction operands with
  | nil => exact h.pure _
  | cons operand rest ih =>
    refine h.bind (h.implicitCast _ _) fun cast? => ?_
    split
    · exact h.bind ih fun _ => h.pure _
    · exact h.pure _

theorem coerceAll (operands : List BoundNode) (target : Ty) :
    Φ (coerceAll operands target) (coerceAll operands target) := by
  refine h.bind (h.castsTo _ _) fun casts? => ?_
  split <;> exact h.pure _

theorem coerceElements (component : Ty) (elements : List BoundNode) :
    Φ (coerceElements component elements) (coerceElements component elements) := by
  induction elements with
  | nil => exact h.pure _
  | cons element rest ih => exact h.bind (h.coerce _ _) fun _ => h.bind ih fun _ => h.pure _

/-- A type is resolved from its element outwards. -/
theorem resolveType (node : SyntaxNode) : Φ (resolveType node) (resolveType node) := by
  fun_induction RuleExpr.resolveType node with
  | case1 text? children span =>
    refine h.bind (h.findType _) fun t? => ?_
    split
    · exact h.pure _
    · exact h.reportNone _ _ _ (by decide)
  | case2 text? element rest span ih =>
    refine h.bind ih fun t? => ?_
    split
    · exact h.bind (h.arrayOf _) fun _ => h.pure _
    · exact h.pure _
  | case3 => exact h.reportNone _ _ _ (by decide)
  | case4 => exact h.reportNone _ _ _ (by decide)

theorem bindLiteral (node : SyntaxNode) (kind : LiteralKind) :
    Φ (bindLiteral node kind) (bindLiteral node kind) := by
  unfold RuleExpr.bindLiteral
  split
  · exact h.pure _
  · exact h.errorNode _ _ _ (by decide)

/-- A name is looked for among the variables, then the receivers, then the fields. -/
theorem bindIdentifier (node : SyntaxNode) : Φ (bindIdentifier node) (bindIdentifier node) := by
  refine h.bind (h.lookupVar _) fun var? => ?_
  split
  · exact h.pure _
  · refine h.look (fun _ _ => rfl) fun s => ?_
    split
    · exact h.pure _
    · refine h.bind (h.getField _) fun field? => ?_
      split
      · exact h.pure _
      · exact h.errorNode _ _ _ (by decide)

theorem accessField (node : SyntaxNode) (target : BoundNode) :
    Φ (accessField node target) (accessField node target) := by
  unfold RuleExpr.accessField
  split
  · exact h.pure _
  · split
    · exact h.pure _
    · refine h.bind (h.fieldOf _ _) fun field? => ?_
      split
      · exact h.pure _
      · exact h.errorNode _ _ _ (by decide)

theorem accessElement (node : SyntaxNode) (array index : BoundNode) :
    Φ (accessElement node array index) (accessElement node array index) := by
  unfold RuleExpr.accessElement
  split
  · exact h.pure _
  · split
    · exact h.errorNode _ _ _ (by decide)
    · refine h.bind (h.coerce _ _) fun index => ?_
      split <;> exact h.pure _

/-- A call is built behind the report that its method is deprecated. -/
theorem buildCall (selection : Selection) (target : Option BoundNode) (arguments : List BoundNode)
    (span : Span) :
    Φ (buildCall selection target arguments span) (buildCall selection target arguments span) :=
  h.bind (h.deprecation _ _) fun _ => h.pure _

theorem callResolved (candidates : List Method) (name : String) (receiver : Option BoundNode)
    (arguments : List BoundNode) (span : Span) :
    Φ (callResolved candidates name receiver arguments span)
      (callResolved candidates name receiver arguments span) := by
  refine h.bind (h.resolve _ _ _) fun resolution => ?_
  split
  · exact h.buildCall _ _ _ _
  · exact h.errorNode _ _ _ (by decide)
  · exact h.errorNode _ _ _ (by decide)

theorem construct (t : Ty) (arguments : List BoundNode) (span : Span) :
    Φ (construct t arguments span) (construct t arguments span) := by
  refine h.look (fun _ _ => rfl) fun s => h.bind (h.resolve _ _ _) fun resolution => ?_
  split
  · exact h.buildCall _ _ _ _
  · exact h.errorNode _ _ _ (by decide)
  · exact h.errorNode _ _ _ (by decide)

theorem liftOperands (methodName : String) (operands : List BoundNode) :
    Φ (liftOperands methodName operands) (liftOperands methodName operands) := by
  unfold RuleExpr.liftOperands
  split
  · exact h.coerceAll _ _
  · split
    · split
      · exact h.coerceAll _ _
      · exact h.pure _
    · exact h.pure _

theorem operatorCall (methodName symbol : String) (operands : List BoundNode) (span : Span) :
    Φ (operatorCall methodName symbol operands span)
      (operatorCall methodName symbol operands span) := by
  refine h.bind (h.liftOperands _ _) fun operands => ?_
  refine h.bind (h.findMethods _) fun candidates => h.bind (h.resolve _ _ _) fun resolution => ?_
  split
  · exact h.buildCall _ _ _ _
  · exact h.errorNode _ _ _ (by decide)
  · exact h.errorNode _ _ _ (by decide)

theorem asCondition (condition : BoundNode) :
    Φ (asCondition condition) (asCondition condition) := by
  unfold RuleExpr.asCondition
  split
  · exact h.pure _
  · split
    · exact h.coerce _ _
    · exact h.errorNode _ _ _ (by decide)

theorem coerceBoth (yes no : BoundNode) (t : Ty) :
    Φ (coerceBoth yes no t) (coerceBoth yes no t) :=
  h.bind (h.coerce _ _) fun _ => h.bind (h.coerce _ _) fun _ => h.pure _

theorem widenedTo (yes no : BoundNode) (common : Option Ty) :
    Φ (widenedTo yes no common) (widenedTo yes no common) := by
  cases common with
  | some t => exact h.map (h.coerceBoth _ _ _) _
  | none =>
    refine h.read (fun _ _ _ => rfl) fun σ => ?_
    split
    · exact h.pure _
    · have hcode : Code.branchesKept ≠ .nestingTooDeep := by decide
      exact h.bind (h.report _ hcode) fun _ => h.pure _

/-- A common superclass comes before the cheapest common type. -/
theorem widenBoth (yes no : BoundNode) : Φ (widenBoth yes no) (widenBoth yes no) := by
  cases hsuper : commonSuperclass yes.ty no.ty with
  | some t =>
    rw [widenBoth_of_superclass hsuper]
    exact h.widenedTo _ _ _
  | none =>
    rw [widenBoth_of_no_superclass hsuper]
    exact h.bind (h.commonType _ _) fun common => h.widenedTo _ _ common

theorem unify (yes no : BoundNode) : Φ (unify yes no) (unify yes no) := by
  unfold RuleExpr.unify
  split
  · exact h.pure _
  · split
    · exact h.bind (h.coerceBoth _ _ _) fun _ => h.pure _
    · refine h.bind (h.implicitCast _ _) fun forward => ?_
      refine h.bind (h.implicitCast _ _) fun backward => ?_
      split
      · split <;> exact h.pure _
      · exact h.pure _
      · exact h.pure _
      · exact h.widenBoth _ _

theorem conditional (node : SyntaxNode) (condition yes : BoundNode) (no? : Option BoundNode) :
    Φ (conditional node condition yes no?) (conditional node condition yes no?) := by
  unfold RuleExpr.conditional
  split
  · exact h.pure _
  · split
    · exact h.pure _
    · split
      · exact h.pure _
      · refine h.bind (h.unify _ _) fun unified? => ?_
        split
        · exact h.pure _
        · exact h.errorNode _ _ _ (by decide)

theorem castTo (node : SyntaxNode) (operand : BoundNode) (target : Ty) :
    Φ (castTo node operand target) (castTo node operand target) := by
  unfold RuleExpr.castTo
  split
  · exact h.pure _
  · split
    · exact h.pure _
    · refine h.bind (h.castBetween _ _) fun cast? => ?_
      split
      · exact h.pure _
      · exact h.errorNode _ _ _ (by decide)

theorem commonElementType (current : Ty) (elements : List BoundNode) :
    Φ (commonElementType current elements) (commonElementType current elements) := by
  induction elements generalizing current with
  | nil => exact h.pure _
  | cons element rest ih =>
    refine h.bind (h.commonType _ _) fun common? => ?_
    split
    · exact ih _
    · exact h.bind (h.errorNode _ _ _ (by decide)) fun _ => h.pure _

theorem buildArray (node : SyntaxNode) (elements : List BoundNode) (common : Ty) :
    Φ (buildArray node elements common) (buildArray node elements common) :=
  h.bind (h.coerceElements _ _) fun _ => h.bind (h.arrayOf _) fun _ => h.pure _

theorem declare (node : SyntaxNode) (t : Ty) (initial : BoundNode) :
    Φ (declare node t initial) (declare node t initial) := by
  refine h.bind (h.coerce _ _) fun initial => ?_
  split
  · exact h.pure _
  · refine h.bind (h.addVar _ _ _ _) fun var? => ?_
    split <;> exact h.pure _

theorem declareLoopVar (node : SyntaxNode) (element declared : Ty) :
    Φ (declareLoopVar node element declared) (declareLoopVar node element declared) := by
  have hadd (cast : Option Cast) :=
    h.map (h.addVar LocalVar.localNs node.text declared node.span)
      (fun var? => var?.map (LoopVariable.mk · cast))
  unfold RuleExpr.declareLoopVar
  split
  · exact hadd none
  · refine h.bind (h.implicitCast _ _) fun cast? => ?_
    split
    · exact hadd _
    · exact h.reportNone _ _ _ (by decide)

theorem namedLoopVar (node : SyntaxNode) (element : Ty) :
    Φ (namedLoopVar node element) (namedLoopVar node element) := by
  unfold RuleExpr.namedLoopVar
  split
  · refine h.bind ?_ fun declared? => ?_
    · unfold declaredLoopType
      split
      · exact h.resolveType _
      · exact h.pure _
    · split
      · exact h.declareLoopVar _ _ _
      · exact h.pure _
  · exact h.reportNone _ _ _ (by decide)

theorem hiddenLoopVar (body : SyntaxNode) (element : Ty) :
    Φ (hiddenLoopVar body element) (hiddenLoopVar body element) := by
  refine h.look (fun _ _ => rfl) fun s => h.read (fun _ _ _ => rfl) fun σ => ?_
  refine h.bind (h.addVar _ _ _ _) fun var? => ?_
  split
  · exact h.bind (h.addReceiver _) fun _ => h.pure _
  · exact h.pure _

theorem aggregateType (kind : AggregateKind) (source : BoundNode) (loop : LoopVariable)
    (body : BoundNode) :
    Φ (aggregateType kind source loop body) (aggregateType kind source loop body) := by
  unfold RuleExpr.aggregateType
  split
  · split
    · exact h.pure _
    · exact h.arrayOf _
  · exact h.pure _
  · exact h.arrayOf _

/-! ## Binders -/

end BindM.Compositional

/-- Children that are the same nodes, bound by related actions. -/
def ChildrenRelated (Φ : ∀ {α : Type}, BindM α → BindM α → Prop) : List Child → List Child → Prop :=
  List.Forall₂ fun c c' => c.node = c'.node ∧ Φ c.bind c'.bind

namespace BindM.Compositional

variable {Φ : ∀ {α : Type}, BindM α → BindM α → Prop} (h : Compositional Φ)
  {children children' : List Child} (hc : ChildrenRelated Φ children children')

include h

theorem bindCondition {child child' : Child} (hc : Φ child.bind child'.bind) :
    Φ (bindCondition child) (bindCondition child') :=
  h.bind hc fun _ => h.asCondition _

/-- A loop reads its variable off the tree, and binds only its body. -/
theorem bindLoop (kind : AggregateKind) (element : Ty) (var? : Option Child)
    {body body' : Child} (hbody : body.node = body'.node ∧ Φ body.bind body'.bind) :
    Φ (bindLoop kind element var? body) (bindLoop kind element var? body') := by
  cases var?
  case' none => refine h.bind (hbody.1 ▸ h.hiddenLoopVar _ _) fun loop? => ?_
  case' some var => refine h.bind (h.namedLoopVar _ _) fun loop? => ?_
  all_goals
    cases loop? with
    | none => exact h.pure _
    | some loop =>
      dsimp only
      split
      · exact h.bind (h.bindCondition hbody.2) fun _ => h.pure _
      · exact h.bind hbody.2 fun _ => h.pure _

/-- The source is bound outside of the scope that the loop opens. -/
theorem bindAggregateOver (node : SyntaxNode) (kind : AggregateKind) {source source' : Child}
    (var? : Option Child) {body body' : Child} (hsource : Φ source.bind source'.bind)
    (hbody : body.node = body'.node ∧ Φ body.bind body'.bind) :
    Φ (bindAggregateOver node kind source var? body)
      (bindAggregateOver node kind source' var? body') := by
  refine h.bind hsource fun source => ?_
  split
  · exact h.pure _
  · split
    · exact h.errorNode _ _ _ (by decide)
    · refine h.bind (h.inScope (h.bindLoop _ _ _ hbody)) fun loop? => ?_
      split
      · exact h.pure _
      · exact h.bind (h.aggregateType _ _ _ _) fun _ => h.pure _

include hc

theorem bindAll : Φ (bindAll children) (bindAll children') := by
  induction hc with
  | nil => exact h.pure _
  | cons hchild _ ih => exact h.bind hchild.2 fun _ => h.bind ih fun _ => h.pure _

theorem bindFieldAccess (node : SyntaxNode) :
    Φ (bindFieldAccess node children) (bindFieldAccess node children') := by
  match children, children', hc with
  | [_], [_], .cons htarget .nil => exact h.bind htarget.2 fun _ => h.accessField _ _
  | [], [], .nil => exact h.malformed _ _
  | _ :: _ :: _, _ :: _ :: _, .cons _ (.cons _ _) => exact h.malformed _ _

theorem bindIndex (node : SyntaxNode) : Φ (bindIndex node children) (bindIndex node children') := by
  match children, children', hc with
  | [_, _], [_, _], .cons harray (.cons hindex .nil) =>
    exact h.bind harray.2 fun _ => h.bind hindex.2 fun _ => h.accessElement _ _ _
  | [], [], .nil => exact h.malformed _ _
  | [_], [_], .cons _ .nil => exact h.malformed _ _
  | _ :: _ :: _ :: _, _ :: _ :: _ :: _, .cons _ (.cons _ (.cons _ _)) => exact h.malformed _ _

theorem bindMethodCall (node : SyntaxNode) :
    Φ (bindMethodCall node children) (bindMethodCall node children') := by
  refine h.bind (h.bindAll hc) fun arguments => ?_
  split
  · exact h.pure _
  · exact h.bind (h.findMethods _) fun _ => h.callResolved _ _ _ _ _

/-- A receiver that failed is not asked for its methods. -/
theorem bindMemberCall (node : SyntaxNode) :
    Φ (bindMemberCall node children) (bindMemberCall node children') := by
  match children, children', hc with
  | [], [], .nil => exact h.malformed _ _
  | _ :: _, _ :: _, .cons hreceiver hrest =>
    refine h.bind hreceiver.2 fun receiver => h.bind (h.bindAll hrest) fun arguments => ?_
    split
    · exact h.pure _
    · exact h.look (fun _ _ => rfl) fun _ => h.callResolved _ _ _ _ _

theorem bindNew (node : SyntaxNode) : Φ (bindNew node children) (bindNew node children') := by
  match children, children', hc with
  | [], [], .nil => exact h.malformed _ _
  | _ :: _, _ :: _, .cons htype hrest =>
    refine h.bind (htype.1 ▸ h.resolveType _) fun t? => h.bind (h.bindAll hrest) fun arguments => ?_
    split
    · exact h.pure _
    · split
      · exact h.pure _
      · exact h.construct _ _ _

theorem bindLogical (node : SyntaxNode) (op : BinaryOp) :
    Φ (bindLogical node op children) (bindLogical node op children') := by
  match children, children', hc with
  | [_, _], [_, _], .cons hleft (.cons hright .nil) =>
    refine h.bind (h.bindCondition hleft.2) fun left => ?_
    refine h.bind (h.bindCondition hright.2) fun right => ?_
    split <;> exact h.pure _
  | [], [], .nil => exact h.malformed _ _
  | [_], [_], .cons _ .nil => exact h.malformed _ _
  | _ :: _ :: _ :: _, _ :: _ :: _ :: _, .cons _ (.cons _ (.cons _ _)) => exact h.malformed _ _

theorem bindBinary (node : SyntaxNode) (op : BinaryOp) :
    Φ (bindBinary node op children) (bindBinary node op children') := by
  unfold RuleExpr.bindBinary
  split
  · exact h.bindLogical hc node op
  · match children, children', hc with
    | [_, _], [_, _], .cons hleft (.cons hright .nil) =>
      refine h.bind hleft.2 fun left => h.bind hright.2 fun right => ?_
      split
      · exact h.pure _
      · exact h.operatorCall _ _ _ _
    | [], [], .nil => exact h.malformed _ _
    | [_], [_], .cons _ .nil => exact h.malformed _ _
    | _ :: _ :: _ :: _, _ :: _ :: _ :: _, .cons _ (.cons _ (.cons _ _)) => exact h.malformed _ _

theorem bindUnary (node : SyntaxNode) (op : UnaryOp) :
    Φ (bindUnary node op children) (bindUnary node op children') := by
  match children, children', hc with
  | [_], [_], .cons hoperand .nil =>
    refine h.bind hoperand.2 fun operand => ?_
    split
    · exact h.pure _
    · exact h.operatorCall _ _ _ _
  | [], [], .nil => exact h.malformed _ _
  | _ :: _ :: _, _ :: _ :: _, .cons _ (.cons _ _) => exact h.malformed _ _

/-- A missing `else` leaves one branch, which needs no common type. -/
theorem bindConditional (node : SyntaxNode) :
    Φ (bindConditional node children) (bindConditional node children') := by
  match children, children', hc with
  | [_, _, _], [_, _, _], .cons hcondition (.cons hyes (.cons hno .nil)) =>
    refine h.bind (h.bindCondition hcondition.2) fun condition => ?_
    exact h.bind hyes.2 fun yes => h.bind hno.2 fun no => h.conditional _ _ _ _
  | [_, _], [_, _], .cons hcondition (.cons hyes .nil) =>
    simp only [RuleExpr.bindConditional]
    split
    · exact h.malformed _ _
    · refine h.bind (h.bindCondition hcondition.2) fun condition => ?_
      exact h.bind hyes.2 fun yes => h.conditional _ _ _ _
  | [], [], .nil =>
    simp only [RuleExpr.bindConditional]
    split <;> exact h.malformed _ _
  | [_], [_], .cons _ .nil =>
    simp only [RuleExpr.bindConditional]
    split <;> exact h.malformed _ _
  | _ :: _ :: _ :: _ :: _, _ :: _ :: _ :: _ :: _, .cons _ (.cons _ (.cons _ (.cons _ _))) =>
    simp only [RuleExpr.bindConditional]
    split <;> exact h.malformed _ _

theorem bindCast (node : SyntaxNode) : Φ (bindCast node children) (bindCast node children') := by
  match children, children', hc with
  | [_, _], [_, _], .cons htype (.cons hoperand .nil) =>
    refine h.bind (htype.1 ▸ h.resolveType _) fun target? => h.bind hoperand.2 fun operand => ?_
    split
    · exact h.castTo _ _ _
    · exact h.pure _
  | [], [], .nil => exact h.malformed _ _
  | [_], [_], .cons _ .nil => exact h.malformed _ _
  | _ :: _ :: _ :: _, _ :: _ :: _ :: _, .cons _ (.cons _ (.cons _ _)) => exact h.malformed _ _

theorem bindNewArray (node : SyntaxNode) :
    Φ (bindNewArray node children) (bindNewArray node children') := by
  match children, children', hc with
  | [_, _], [_, _], .cons htype (.cons hsize .nil) =>
    refine h.bind (htype.1 ▸ h.resolveType _) fun element? => h.bind hsize.2 fun size => ?_
    split
    · exact h.pure _
    · split
      · exact h.pure _
      · refine h.bind (h.coerce _ _) fun size => ?_
        split
        · exact h.pure _
        · exact h.bind (h.arrayOf _) fun _ => h.pure _
  | [], [], .nil => exact h.malformed _ _
  | [_], [_], .cons _ .nil => exact h.malformed _ _
  | _ :: _ :: _ :: _, _ :: _ :: _ :: _, .cons _ (.cons _ (.cons _ _)) => exact h.malformed _ _

theorem bindArrayInit (node : SyntaxNode) :
    Φ (bindArrayInit node children) (bindArrayInit node children') := by
  refine h.bind (h.bindAll hc) fun elements => ?_
  split
  · exact h.pure _
  · split
    · exact h.buildArray _ _ _
    · refine h.bind (h.commonElementType _ _) fun common => ?_
      split
      · exact h.buildArray _ _ _
      · exact h.pure _

theorem bindBlock (node : SyntaxNode) : Φ (bindBlock node children) (bindBlock node children') :=
  h.bind (h.inScope (h.bindAll hc)) fun _ => h.pure _

theorem bindVarDecl (node : SyntaxNode) :
    Φ (bindVarDecl node children) (bindVarDecl node children') := by
  match children, children', hc with
  | [_, _], [_, _], .cons htype (.cons hinitial .nil) =>
    refine h.bind (htype.1 ▸ h.resolveType _) fun declared? => h.bind hinitial.2 fun initial => ?_
    split
    · exact h.declare _ _ _
    · exact h.pure _
  | [], [], .nil => exact h.malformed _ _
  | [_], [_], .cons _ .nil => exact h.malformed _ _
  | _ :: _ :: _ :: _, _ :: _ :: _ :: _, .cons _ (.cons _ (.cons _ _)) => exact h.malformed _ _

theorem bindAggregate (node : SyntaxNode) (kind : AggregateKind) :
    Φ (bindAggregate node kind children) (bindAggregate node kind children') := by
  match children, children', hc with
  | [_, _], [_, _], .cons hsource (.cons hbody .nil) =>
    exact h.bindAggregateOver _ _ none hsource.2 hbody
  | [_, var, _], [source', var', body'], .cons hsource (.cons hvar (.cons hbody .nil)) =>
    -- Of a loop variable the node alone is looked at.
    have hsame : RuleExpr.bindAggregateOver node kind source' (some var') body' =
        RuleExpr.bindAggregateOver node kind source' (some var) body' := by
      simp only [RuleExpr.bindAggregateOver, RuleExpr.bindLoop, hvar.1]
    simp only [RuleExpr.bindAggregate]
    rw [hsame]
    exact h.bindAggregateOver _ _ (some var) hsource.2 hbody
  | [], [], .nil => exact h.malformed _ _
  | [_], [_], .cons _ .nil => exact h.malformed _ _
  | _ :: _ :: _ :: _ :: _, _ :: _ :: _ :: _ :: _, .cons _ (.cons _ (.cons _ (.cons _ _))) =>
    exact h.malformed _ _

/-- Binders of one node are related if the actions that bind its children are. -/
theorem bindKind (node : SyntaxNode) : Φ (bindKind node children) (bindKind node children') := by
  unfold RuleExpr.bindKind
  split
  · exact h.bindLiteral _ _
  · exact h.bindIdentifier _
  · exact h.bindFieldAccess hc _
  · exact h.bindIndex hc _
  · exact h.bindMethodCall hc _
  · exact h.bindMemberCall hc _
  · exact h.bindBinary hc _ _
  · exact h.bindUnary hc _ _
  · exact h.bindCast hc _
  · exact h.bindConditional hc _
  · exact h.bindConditional hc _
  · exact h.bindNew hc _
  · exact h.bindNewArray hc _
  · exact h.bindArrayInit hc _
  · exact h.bindAggregate hc _ _
  · exact h.bindBlock hc _
  · exact h.bindVarDecl hc _
  · exact h.errorNode _ _ _ (by decide)
  · exact h.errorNode _ _ _ (by decide)
  · exact h.errorNode _ _ _ (by decide)

end BindM.Compositional

/-- A relation that carries over to the nesting of nodes. -/
def CarriesOver (Φ : ∀ {α : Type}, BindM α → BindM α → Prop) : Prop :=
  ∀ (span : Span) {act act' : BindM BoundNode}, Φ act act' → Φ (nested span act) (nested span act')

namespace BindM.Compositional

variable {Φ : ∀ {α : Type}, BindM α → BindM α → Prop}

mutual

/-- What also carries over to the nesting of nodes holds of binding any tree. -/
theorem bindTree (h : Compositional Φ) (hnested : CarriesOver Φ) :
    ∀ node : SyntaxNode, Φ (RuleExpr.bind node) (RuleExpr.bind node)
  | ⟨_, _, children, span⟩ => by
    rw [RuleExpr.bind]
    exact hnested span (h.bindKind (bindTrees h hnested children) _)

theorem bindTrees (h : Compositional Φ) (hnested : CarriesOver Φ) :
    ∀ nodes : List SyntaxNode, ChildrenRelated Φ (childrenOf nodes) (childrenOf nodes)
  | [] => .nil
  | node :: rest => by
    rw [childrenOf]
    exact .cons ⟨rfl, bindTree h hnested node⟩ (bindTrees h hnested rest)

end

end BindM.Compositional

end RuleExpr

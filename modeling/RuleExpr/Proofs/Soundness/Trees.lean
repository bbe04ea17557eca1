import RuleExpr.Proofs.Soundness.Types

/-!
# Binding Stays Within Types

Every binder keeps to a closed set of types if the actions that bind its children do, so that the
whole of a bound tree has its types there.  The variables that it declares on the way have types
that were named, or those of elements.
-/

namespace RuleExpr

open BindM BindState

variable {P : Program} {O : Ty → Prop} {σ : BindSettings}

/-- What is visible behind a scope was visible in it. -/
theorem BindState.sees_of_closeScope {s : BindState} {var : LocalVar} (h : s.closeScope.Sees var) :
    s.Sees var := by
  unfold closeScope at h
  split at h
  case h_1 closed hclosed =>
    unfold BindState.popScope at hclosed
    split at hclosed
    case h_1 inner outer rest hscopes =>
      cases hclosed
      rcases h with ⟨scope, hscope, hmem⟩ | ⟨depth, hreceiver⟩
      · refine .inl ⟨scope, ?_, hmem⟩
        rw [hscopes]
        exact List.mem_cons_of_mem _ hscope
      · exact .inr ⟨depth, (List.mem_filter.1 hreceiver).1⟩
    case h_2 => cases hclosed
  case h_2 => exact h

theorem BindState.Knows.closeScope {s : BindState} (h : s.Knows P O) : s.closeScope.Knows P O := by
  have hvars : ∀ var, s.closeScope.Sees var → O var.ty :=
    fun var hvar => h.vars var (sees_of_closeScope hvar)
  obtain ⟨scopes, receivers, hclosed⟩ := closeScope_eq s
  rw [hclosed] at hvars ⊢
  exact ⟨h.program, h.interned, hvars⟩

theorem BindState.Knows.pushScope {s : BindState} (h : s.Knows P O) : s.pushScope.Knows P O :=
  ⟨h.program, h.interned, fun var hvar => h.vars var (sees_pushScope.1 hvar)⟩

theorem BindState.Knows.withDepth {s : BindState} (h : s.Knows P O) (depth : Nat) :
    BindState.Knows P O { s with depth } :=
  ⟨h.program, h.interned, h.vars⟩

/-- Closing a scope forgets variables and adds none. -/
theorem inScope_stays {α : Type} {act : BindM α} {Q : α → Prop} (h : Stays P O σ act Q) :
    Stays P O σ (inScope act) Q := by
  intro s hs
  have hact := h s.pushScope hs.pushScope
  unfold inScope
  match hrun : act σ s.pushScope with
  | (.ok a, s₁) =>
    rw [hrun] at hact
    exact hact.imp_left Knows.closeScope
  | (.error e, s₁) =>
    rw [hrun] at hact
    exact hact

/-- A variable has the type it is declared with.  There is none if its name is taken. -/
theorem addVar_stays (ns name : String) {t : Ty} (ht : O t) (span : Span) :
    Stays P O σ (addVar ns name t span) fun var? => ∀ var ∈ var?, var.ty = t := by
  refine .of_ok fun s hs => ?_
  have hrun : addVar ns name t span σ s = _ := addVar_eq_ite ns name t span
  split at hrun
  · exact ⟨none, _, hrun, ⟨hs.program, hs.interned, hs.vars⟩, nofun⟩
  · obtain ⟨hadds, -, -⟩ := addVar_eq_some hrun
    refine ⟨_, _, hrun, ⟨hs.program, hs.interned, fun other hother => ?_⟩, ?_⟩
    · rcases hadds.sees hother with hother | rfl
      · exact hs.vars other hother
      · exact ht
    · rintro _ ⟨⟩
      rfl

theorem addReceiver_stays {var : LocalVar} (hvar : O var.ty) :
    Stays P O σ (addReceiver var) fun _ => True := by
  intro s hs
  refine ⟨⟨hs.program, hs.interned, ?_⟩, trivial⟩
  rintro other (hscope | ⟨depth, hreceiver⟩)
  · exact hs.vars other (.inl hscope)
  · rcases List.mem_append.1 hreceiver with hreceiver | hreceiver
    · exact hs.vars other (.inr ⟨depth, hreceiver⟩)
    · cases List.mem_singleton.1 hreceiver
      exact hvar

/-! ## Binders -/

/-- All children are bound within `O`. -/
def ChildrenStay (P : Program) (O : Ty → Prop) (σ : BindSettings) (children : List Child) : Prop :=
  ∀ child ∈ children, Stays P O σ child.bind (·.TypesIn O)

section Children

variable {child : Child} {rest children : List Child}

theorem ChildrenStay.head (h : ChildrenStay P O σ (child :: rest)) :
    Stays P O σ child.bind (·.TypesIn O) :=
  h child List.mem_cons_self

theorem ChildrenStay.tail (h : ChildrenStay P O σ (child :: rest)) :
    ChildrenStay P O σ rest :=
  fun other hmem => h other (List.mem_cons_of_mem _ hmem)

theorem bindAll_stays (h : ChildrenStay P O σ children) :
    Stays P O σ (bindAll children) fun ns => ∀ n ∈ ns, n.TypesIn O := by
  induction children with
  | nil => exact .pure (List.forall_mem_nil _)
  | cons child rest ih =>
    refine h.head.bind fun n hn => (ih h.tail).bind fun ns hns => .pure ?_
    exact List.forall_mem_cons.2 ⟨hn, hns⟩

end Children

section Binders

variable (hP : σ.TypesIn P O) (node : SyntaxNode) {children : List Child}
  (h : ChildrenStay P O σ children)

include hP

theorem poisoned_typesIn : node.poisoned.TypesIn O := typesIn_failure hP.toClosed _ _

theorem malformed_stays (arity : Arity) : Stays P O σ (malformed node arity) (·.TypesIn O) :=
  errorNode_stays hP _ _ _

theorem bindCondition_stays {child : Child} (h : Stays P O σ child.bind (·.TypesIn O)) :
    Stays P O σ (bindCondition child) (·.TypesIn O) :=
  h.bind fun _ hn => asCondition_stays hP hn

include h

theorem bindFieldAccess_stays :
    Stays P O σ (bindFieldAccess node children) (·.TypesIn O) := by
  unfold bindFieldAccess
  split
  · exact h.head.bind fun _ htarget => accessField_stays hP node htarget
  · exact malformed_stays hP node _

theorem bindIndex_stays : Stays P O σ (bindIndex node children) (·.TypesIn O) := by
  unfold bindIndex
  split
  · refine h.head.bind fun array harray => h.tail.head.bind fun index hindex => ?_
    exact accessElement_stays hP node harray hindex
  · exact malformed_stays hP node _

theorem bindMethodCall_stays : Stays P O σ (bindMethodCall node children) (·.TypesIn O) := by
  refine (bindAll_stays h).bind fun arguments harguments => ?_
  split
  · exact .pure (poisoned_typesIn hP node)
  · refine (findMethods_stays hP _).bind fun candidates hcandidates => ?_
    exact callResolved_stays hP hcandidates nofun harguments

/-- The methods to choose from are members of the receiver, whose type is in `O`. -/
theorem bindMemberCall_stays : Stays P O σ (bindMemberCall node children) (·.TypesIn O) := by
  unfold bindMemberCall
  split
  · exact malformed_stays hP node _
  · refine h.head.bind fun receiver hreceiver => ?_
    refine (bindAll_stays h.tail).bind fun arguments harguments => ?_
    split
    · exact .pure (poisoned_typesIn hP node)
    · refine Stays.get.bind fun s hs => ?_
      obtain rfl := hs.program
      refine callResolved_stays hP (fun m hm => hP.signature (.member hreceiver.ty hm)) ?_
        harguments
      rintro _ ⟨⟩
      exact hreceiver

theorem bindNew_stays : Stays P O σ (bindNew node children) (·.TypesIn O) := by
  unfold bindNew
  split
  · exact malformed_stays hP node _
  · refine (resolveType_stays hP _).bind fun t? ht? => ?_
    refine (bindAll_stays h.tail).bind fun arguments harguments => ?_
    split
    · exact .pure (poisoned_typesIn hP node)
    · split
      · exact .pure (poisoned_typesIn hP node)
      · exact construct_stays hP (ht? _ rfl) harguments

theorem bindLogical_stays (op : BinaryOp) :
    Stays P O σ (bindLogical node op children) (·.TypesIn O) := by
  unfold bindLogical
  split
  · refine (bindCondition_stays hP h.head).bind fun left hleft => ?_
    refine (bindCondition_stays hP h.tail.head).bind fun right hright => ?_
    have hoperands := List.forall_mem_cons.2 ⟨hleft, List.forall_mem_singleton.2 hright⟩
    split
    · exact .pure (poisoned_typesIn hP node)
    · refine .pure ?_
      split <;> exact typesIn_plain (hP.builtin rfl) rfl hoperands
  · exact malformed_stays hP node _

theorem bindBinary_stays (op : BinaryOp) :
    Stays P O σ (bindBinary node op children) (·.TypesIn O) := by
  unfold bindBinary
  split
  · exact bindLogical_stays hP node h op
  · split
    · refine h.head.bind fun left hleft => h.tail.head.bind fun right hright => ?_
      split
      · exact .pure (poisoned_typesIn hP node)
      · refine operatorCall_stays hP _ _ _ ?_
        exact List.forall_mem_cons.2 ⟨hleft, List.forall_mem_singleton.2 hright⟩
    · exact malformed_stays hP node _

theorem bindUnary_stays (op : UnaryOp) :
    Stays P O σ (bindUnary node op children) (·.TypesIn O) := by
  unfold bindUnary
  split
  · refine h.head.bind fun operand hoperand => ?_
    split
    · exact .pure (poisoned_typesIn hP node)
    · exact operatorCall_stays hP _ _ _ (List.forall_mem_singleton.2 hoperand)
  · exact malformed_stays hP node _

theorem bindConditional_stays :
    Stays P O σ (bindConditional node children) (·.TypesIn O) := by
  unfold bindConditional
  split
  · refine (bindCondition_stays hP h.head).bind fun condition hcondition => ?_
    refine h.tail.head.bind fun yes hyes => h.tail.tail.head.bind fun no hno => ?_
    refine conditional_stays hP node hcondition hyes ?_
    rintro _ ⟨⟩
    exact hno
  · split
    · exact malformed_stays hP node _
    · split
      · refine (bindCondition_stays hP h.head).bind fun condition hcondition => ?_
        exact h.tail.head.bind fun yes hyes => conditional_stays hP node hcondition hyes nofun
      · exact malformed_stays hP node _

/-- The target of a cast is a type that the tree names. -/
theorem bindCast_stays : Stays P O σ (bindCast node children) (·.TypesIn O) := by
  unfold bindCast
  split
  · refine (resolveType_stays hP _).bind fun target? htarget? => ?_
    refine h.tail.head.bind fun operand hoperand => ?_
    split
    case h_1 target => exact castTo_stays hP node hoperand (htarget? target rfl)
    case h_2 => exact .pure (poisoned_typesIn hP node)
  · exact malformed_stays hP node _

theorem bindNewArray_stays : Stays P O σ (bindNewArray node children) (·.TypesIn O) := by
  unfold bindNewArray
  split
  · refine (resolveType_stays hP _).bind fun element? helement? => ?_
    refine h.tail.head.bind fun size hsize => ?_
    split
    case h_1 => exact .pure (poisoned_typesIn hP node)
    case h_2 element =>
      have helement := helement? element rfl
      split
      · exact .pure (poisoned_typesIn hP node)
      · refine (coerce_stays hP hsize (hP.builtin rfl)).bind fun converted hconverted => ?_
        split
        · exact .pure (poisoned_typesIn hP node)
        -- The node names the element type beside its own.
        · refine (arrayOf_stays hP helement).bind fun t ht => .pure (.intro ?_ ?_)
          · exact List.forall_mem_cons.2 ⟨ht, List.forall_mem_singleton.2 helement⟩
          · exact List.forall_mem_singleton.2 hconverted
  · exact malformed_stays hP node _

theorem bindArrayInit_stays : Stays P O σ (bindArrayInit node children) (·.TypesIn O) := by
  refine (bindAll_stays h).bind fun elements helements => ?_
  split
  · exact .pure (poisoned_typesIn hP node)
  · split
    · exact buildArray_stays hP node (List.forall_mem_nil _) (hP.builtin rfl)
    · have hall := List.forall_mem_cons.1 helements
      refine (commonElementType_stays hP hall.1.ty hall.2).bind fun result hresult => ?_
      split
      · exact buildArray_stays hP node helements hresult
      · exact .pure hresult

/-- A block has the type of its last statement, and an empty one has none of its own. -/
theorem bindBlock_stays : Stays P O σ (bindBlock node children) (·.TypesIn O) := by
  refine (inScope_stays (bindAll_stays h)).bind fun statements hstatements => .pure ?_
  refine typesIn_plain ?_ rfl hstatements
  cases hlast : statements.getLast? with
  | none => exact hP.builtin rfl
  | some last => exact (hstatements last (List.mem_of_getLast? hlast)).ty

theorem bindVarDecl_stays : Stays P O σ (bindVarDecl node children) (·.TypesIn O) := by
  unfold bindVarDecl
  split
  · refine (resolveType_stays hP _).bind fun declared? hdeclared? => ?_
    refine h.tail.head.bind fun initial hinitial => ?_
    split
    case h_1 t =>
      have ht := hdeclared? t rfl
      refine (coerce_stays hP hinitial ht).bind fun converted hconverted => ?_
      split
      · exact .pure (poisoned_typesIn hP node)
      · refine (addVar_stays _ _ ht _).bind fun var? hvar? => ?_
        split
        case h_1 var =>
          refine .pure (typesIn_plain ?_ rfl (List.forall_mem_singleton.2 hconverted))
          rw [hvar? var rfl]
          exact ht
        case h_2 => exact .pure (poisoned_typesIn hP node)
    case h_2 => exact .pure (poisoned_typesIn hP node)
  · exact malformed_stays hP node _

end Binders

section Loops

variable (hP : σ.TypesIn P O)

/-- The variable of a loop and the conversion of the elements to its type keep to `O`. -/
def LoopVariable.TypesIn (O : Ty → Prop) (loop : LoopVariable) : Prop :=
  O loop.var.ty ∧ ∀ c ∈ loop.elementCast, O c.target

theorem addLoopVar_stays {name : String} {t : Ty} {span : Span} {cast? : Option Cast} (ht : O t)
    (hcast : ∀ c ∈ cast?, O c.target) :
    Stays P O σ
      (do
        let var? ← addVar LocalVar.localNs name t span
        return var?.map (LoopVariable.mk · cast?))
      fun loop? => ∀ loop ∈ loop?, loop.TypesIn O := by
  refine (addVar_stays _ _ ht _).bind fun var? hvar? => .pure fun loop hloop => ?_
  obtain ⟨var, hvar, rfl⟩ := Option.map_eq_some_iff.1 hloop
  refine ⟨?_, hcast⟩
  rw [hvar? var hvar]
  exact ht

include hP

/-- Elements are converted if the variable is declared with a type that is not theirs. -/
theorem declareLoopVar_stays (node : SyntaxNode) {element declared : Ty} (helement : O element)
    (hdeclared : O declared) :
    Stays P O σ (declareLoopVar node element declared)
      fun loop? => ∀ loop ∈ loop?, loop.TypesIn O := by
  unfold declareLoopVar
  split
  · exact addLoopVar_stays hdeclared nofun
  · refine (implicitCast_stays hP helement hdeclared).bind fun c? hc? => ?_
    split
    · exact addLoopVar_stays hdeclared hc?
    · exact (report_stays _).bind fun _ _ => .pure nofun

theorem namedLoopVar_stays (node : SyntaxNode) {element : Ty} (helement : O element) :
    Stays P O σ (namedLoopVar node element) fun loop? => ∀ loop ∈ loop?, loop.TypesIn O := by
  have hdeclared : Stays P O σ (declaredLoopType node element) fun t? => ∀ t ∈ t?, O t := by
    unfold declaredLoopType
    split
    · exact resolveType_stays hP _
    · refine .pure ?_
      rintro _ ⟨⟩
      exact helement
  unfold namedLoopVar
  split
  · refine hdeclared.bind fun t? ht? => ?_
    split
    case h_1 t => exact declareLoopVar_stays hP node helement (ht? t rfl)
    case h_2 => exact .pure nofun
  · exact (report_stays _).bind fun _ _ => .pure nofun

omit hP in
/-- A variable without a name has the type of the elements, and is a receiver besides. -/
theorem hiddenLoopVar_stays (body : SyntaxNode) {element : Ty} (helement : O element) :
    Stays P O σ (hiddenLoopVar body element) fun loop? => ∀ loop ∈ loop?, loop.TypesIn O := by
  refine Stays.get.bind fun s _ => Stays.read.bind fun settings _ => ?_
  refine (addVar_stays _ _ helement _).bind fun var? hvar? => ?_
  split
  case h_1 var =>
    have hvar : O var.ty := by
      rw [hvar? var rfl]
      exact helement
    refine (addReceiver_stays hvar).bind fun _ _ => .pure ?_
    rintro _ ⟨⟩
    exact ⟨hvar, nofun⟩
  case h_2 => exact .pure nofun

/-- A loop with a named variable and one with a hidden variable bind their body alike. -/
theorem bindLoopBody_stays (kind : AggregateKind) {body : Child} {loop? : Option LoopVariable}
    (hloop? : ∀ loop ∈ loop?, loop.TypesIn O) (hbody : Stays P O σ body.bind (·.TypesIn O)) :
    Stays P O σ (bindLoopBody kind body loop?)
      fun result => ∀ found ∈ result, found.1.TypesIn O ∧ found.2.TypesIn O := by
  have hreturn {loop : LoopVariable} {bound : BoundNode} (hloop : loop.TypesIn O)
      (hbound : bound.TypesIn O) : ∀ found ∈ (if bound.isError then none else some (loop, bound)),
        found.1.TypesIn O ∧ found.2.TypesIn O := by
    split <;> rintro _ ⟨⟩
    exact ⟨hloop, hbound⟩
  cases loop? with
  | none =>
    refine .pure ?_
    rintro _ ⟨⟩
  | some loop =>
    have hloop := hloop? loop rfl
    rw [bindLoopBody]
    split
    · exact (bindCondition_stays hP hbody).bind fun _ hbound => .pure (hreturn hloop hbound)
    · exact hbody.bind fun _ hbound => .pure (hreturn hloop hbound)

theorem bindLoop_stays (kind : AggregateKind) {element : Ty} {var? : Option Child} {body : Child}
    (helement : O element) (hbody : Stays P O σ body.bind (·.TypesIn O)) :
    Stays P O σ (bindLoop kind element var? body)
      fun result => ∀ found ∈ result, found.1.TypesIn O ∧ found.2.TypesIn O := by
  cases var? with
  | some var =>
    rw [bindLoop_some]
    exact (namedLoopVar_stays hP _ helement).bind fun _ hloop =>
      bindLoopBody_stays hP kind hloop hbody
  | none =>
    rw [bindLoop_none]
    exact (hiddenLoopVar_stays _ helement).bind fun _ hloop =>
      bindLoopBody_stays hP kind hloop hbody

/-- An aggregate is typed by its source, by an element or by an array of one of the two. -/
theorem aggregateType_stays (kind : AggregateKind) {source body : BoundNode} {loop : LoopVariable}
    (hsource : source.TypesIn O) (hloop : loop.TypesIn O) (hbody : body.TypesIn O) :
    Stays P O σ (aggregateType kind source loop body) O := by
  unfold aggregateType
  split
  · split
    · exact .pure hsource.ty
    · exact arrayOf_stays hP hloop.1
  · exact .pure (hP.toClosed.box hloop.1)
  · refine arrayOf_stays hP ?_
    split
    · exact hP.builtin rfl
    · exact hbody.ty

/-- The elements have the component type of the source, which is in `O` if the source is. -/
theorem bindAggregateOver_stays (node : SyntaxNode) (kind : AggregateKind) {source : Child}
    {var? : Option Child} {body : Child} (hsource : Stays P O σ source.bind (·.TypesIn O))
    (hbody : Stays P O σ body.bind (·.TypesIn O)) :
    Stays P O σ (bindAggregateOver node kind source var? body) (·.TypesIn O) := by
  refine hsource.bind fun source hsource => ?_
  split
  · exact .pure (poisoned_typesIn hP node)
  · split
    case h_1 => exact errorNode_stays hP _ _ _
    case h_2 element helement =>
      have hO := hP.component hsource.ty helement
      refine (inScope_stays (bindLoop_stays hP kind hO hbody)).bind fun result hresult => ?_
      split
      case h_1 => exact .pure (poisoned_typesIn hP node)
      case h_2 loop body =>
        obtain ⟨hloop, hbody⟩ := hresult _ rfl
        refine (aggregateType_stays hP kind hsource hloop hbody).bind fun t ht => .pure ?_
        refine .intro (List.forall_mem_cons.2 ⟨ht, List.forall_mem_map.2 ?_⟩) ?_
        · exact fun c hc => hloop.2 c (Option.mem_toList.1 hc)
        · exact List.forall_mem_cons.2 ⟨hsource, List.forall_mem_singleton.2 hbody⟩

theorem bindAggregate_stays (node : SyntaxNode) (kind : AggregateKind) {children : List Child}
    (h : ChildrenStay P O σ children) :
    Stays P O σ (bindAggregate node kind children) (·.TypesIn O) := by
  unfold bindAggregate
  split
  · exact bindAggregateOver_stays hP node kind h.head h.tail.head
  · exact bindAggregateOver_stays hP node kind h.head h.tail.tail.head
  · exact malformed_stays hP node _

end Loops

section Trees

variable (hP : σ.TypesIn P O)

include hP

theorem bindKind_stays (node : SyntaxNode) {children : List Child}
    (h : ChildrenStay P O σ children) :
    Stays P O σ (bindKind node children) (·.TypesIn O) := by
  unfold bindKind
  split
  · exact bindLiteral_stays hP node _
  · exact bindIdentifier_stays hP node
  · exact bindFieldAccess_stays hP node h
  · exact bindIndex_stays hP node h
  · exact bindMethodCall_stays hP node h
  · exact bindMemberCall_stays hP node h
  · exact bindBinary_stays hP node h _
  · exact bindUnary_stays hP node h _
  · exact bindCast_stays hP node h
  · exact bindConditional_stays hP node h
  · exact bindConditional_stays hP node h
  · exact bindNew_stays hP node h
  · exact bindNewArray_stays hP node h
  · exact bindArrayInit_stays hP node h
  · exact bindAggregate_stays hP node _ h
  · exact bindBlock_stays hP node h
  · exact bindVarDecl_stays hP node h
  · exact errorNode_stays hP _ _ _
  · exact errorNode_stays hP _ _ _
  · exact errorNode_stays hP _ _ _

/-- Beyond the limit of nesting there is an error node instead. -/
theorem nested_stays (span : Span) {act : BindM BoundNode}
    (h : Stays P O σ act (·.TypesIn O)) :
    Stays P O σ (nested span act) (·.TypesIn O) := by
  intro s hs
  by_cases hdepth : s.depth < σ.config.maxBindDepth
  · have hact := h { s with depth := s.depth + 1 } (hs.withDepth _)
    match hrun : act σ { s with depth := s.depth + 1 } with
    | (r, s₁) =>
      rw [hrun] at hact
      rw [nested_of_lt hdepth hrun]
      match r, hact with
      | .ok n, ⟨hs₁, hn⟩ => exact ⟨hs₁.withDepth _, hn⟩
      | .error e, hfails => exact hfails
  · rw [nested_of_not_lt hdepth]
    exact errorNode_stays hP _ _ _ s hs

end Trees

mutual

/-- A bound tree has its types where its module has them. -/
theorem bind_stays (hP : σ.TypesIn P O) :
    ∀ node : SyntaxNode, Stays P O σ (bind node) (·.TypesIn O)
  | ⟨kind, text?, children, span⟩ => by
    unfold bind
    exact nested_stays hP span (bindKind_stays hP _ (childrenOf_stay hP children))

theorem childrenOf_stay (hP : σ.TypesIn P O) :
    ∀ nodes : List SyntaxNode, ChildrenStay P O σ (childrenOf nodes)
  | [] => by simp [childrenOf, ChildrenStay]
  | node :: rest => by
    intro child hmem
    rw [childrenOf] at hmem
    rcases List.mem_cons.1 hmem with rfl | hmem
    · exact bind_stays hP node
    · exact childrenOf_stay hP rest child hmem

end

end RuleExpr

import RuleExpr.Proofs.Binding.Alike
import RuleExpr.Proofs.Binding.Composition

/-!
# Trees in Contexts That Look Alike

A tree is bound alike in contexts that look alike.  There is one statement for each action of the
binder, and the induction over the tree puts them together.
-/

namespace RuleExpr

open BindM BindState
open List (Forall₂)

variable {P : Program} {O : Ty → Prop} {config : Config}

/-- What is reported may differ. -/
theorem report_agrees (d d' : Diagnostic) :
    Agree P O config (report d) (report d') fun _ _ => True :=
  .of_stays (fun _ => ⟨_, _, rfl⟩) (fun _ => ⟨_, _, rfl⟩) (report_stays d) (report_stays d')
    (report_still d) (report_still d') fun _ _ _ _ _ _ _ _ _ _ _ => trivial

theorem lookupVar_agrees (name : String) :
    Agree P O config (lookupVar name) (lookupVar name) (Option.Rel (LocalVar.Alike O)) := by
  refine Agree.get.bind fun s s' hs => Agree.read.bind fun σ σ' ⟨hσ, hσ'⟩ => .pure ?_
  subst hσ hσ'
  exact hs.findVar _ _ _

/-- Declaring a variable leaves variables that look alike. -/
theorem addVar_agrees (ns name : String) {t t' : Ty} (ht : t.Alike O t') (span span' : Span) :
    Agree P O config (addVar ns name t span) (addVar ns name t' span')
      (Option.Rel (LocalVar.Alike O)) := by
  intro s s' hs
  have hrun : addVar ns name t span (.standard config) s = _ := addVar_eq_ite ns name t span
  have hrun' : addVar ns name t' span' (.standard config) s' = _ := addVar_eq_ite ns name t' span'
  rw [← hs.declaredHere] at hrun'
  -- Contexts that look alike declare the same names, so the variable is taken or refused in both.
  by_cases hdeclared : s.declaredHere ns name
  · rw [if_pos hdeclared] at hrun hrun'
    rw [hrun, hrun']
    have hs₁ := (addVar_stays ns name ht.left span).run hs.left hrun
    have hs₁' := (addVar_stays ns name ht.right span').run hs.right hrun'
    exact .ok ⟨hs₁.1, hs₁'.1, hs.scopes, hs.receivers, hs.depth⟩ .none
  · rw [if_neg hdeclared] at hrun hrun'
    rw [hrun, hrun']
    have hs₁ := (addVar_stays ns name ht.left span).run hs.left hrun
    have hs₁' := (addVar_stays ns name ht.right span').run hs.right hrun'
    refine .ok ⟨hs₁.1, hs₁'.1, ?_, hs.receivers, hs.depth⟩ (.some ⟨rfl, rfl, ht⟩)
    have hscopes := hs.scopes
    simp only [declareVar]
    generalize s.scopes = scopes at hscopes ⊢
    generalize s'.scopes = scopes' at hscopes ⊢
    cases hscopes with
    | nil => exact .nil
    | cons hscope houter =>
      exact .cons (List.rel_append hscope (.cons ⟨rfl, rfl, ht⟩ .nil)) houter

theorem addReceiver_agrees {var var' : LocalVar} (hvar : var.Alike O var') :
    Agree P O config (addReceiver var) (addReceiver var') fun _ _ => True := by
  intro s s' hs
  have ht := (addReceiver_stays (σ := .standard config) hvar.ty.left s hs.left).1
  have ht' := (addReceiver_stays (σ := .standard config) hvar.ty.right s' hs.right).1
  refine .ok ⟨ht, ht', hs.scopes, ?_, hs.depth⟩ trivial
  exact List.rel_append hs.receivers (.cons ⟨hs.scopeDepth, hvar⟩ .nil)

/-- Methods that a caller cannot tell apart, with signatures in `O`. -/
structure CandidatesAlike (O : Ty → Prop) (ms ms' : List Method) : Prop where
  alike : Forall₂ Method.Alike ms ms'
  left : ∀ m ∈ ms, m.SignatureIn O
  right : ∀ m ∈ ms', m.SignatureIn O

section Actions

variable (hP : P.Uniform O)

include hP

theorem stays_within (config : Config) : (BindSettings.standard config).TypesIn P O :=
  hP.toTypesIn.standard config

/-- Error nodes are alike whatever their messages say. -/
theorem errorNode_agrees (code code' : Code) (message message' : String) (span span' : Span) :
    Agree P O config (errorNode code message span) (errorNode code' message' span')
      (BoundNode.Alike O) :=
  (report_agrees _ _).bind fun _ _ _ => .pure (failure_alike hP.toClosed _ _ _ _)

/-- Both runs look for types in one module. -/
theorem findType_agrees (name : String) :
    Agree P O config (findType name) (findType name) (Option.Rel (Ty.Alike O)) := by
  refine Agree.get.bind fun s s' hs => .pure ?_
  have hsame : s'.owner.findType name = s.owner.findType name :=
    congrArg (·.findType name) (hs.right.program.trans hs.left.program.symm)
  rw [hsame]
  cases ht : s.owner.findType name with
  | none => exact .none
  | some t =>
    obtain rfl := hs.left.program
    exact .some (.refl (hP.named ht))

/-- An array type that is found or entered is a copy of the one that was asked for. -/
theorem arrayOf_isCopy {component t : Ty} {s s' : BindState} (hcomponent : O component) (ht : O t)
    (hrun : arrayOf component (.standard config) s = (.ok t, s')) :
    t.IsCopy (.array component) := by
  obtain ⟨known, rfl, hkey⟩ := arrayOf_eq_ok hrun
  exact (hP.isCopy (hP.component ht rfl) hcomponent hkey).array

theorem arrayOf_agrees {component component' : Ty} (h : component.Alike O component') :
    Agree P O config (arrayOf component) (arrayOf component') (Ty.Alike O) := by
  have hσ := stays_within hP config
  refine .of_stays (fun _ => ⟨_, _, rfl⟩) (fun _ => ⟨_, _, rfl⟩) (arrayOf_stays hσ h.left)
    (arrayOf_stays hσ h.right) (arrayOf_still _) (arrayOf_still _)
    fun s s' t t' _ _ _ hrun hrun' ht ht' => ⟨?_, ht, ht'⟩
  have hleft := arrayOf_isCopy hP h.left ht hrun
  have hright := arrayOf_isCopy hP h.right ht' hrun'
  exact hleft.trans (h.copy.array.trans hright.symm)

theorem getField_agrees (name : String) :
    Agree P O config (getField name) (getField name)
      (Option.Rel fun field field' => field.ty.Alike O field'.ty) := by
  have hσ := stays_within hP config
  refine .of_stays (fun _ => ⟨_, _, rfl⟩) (fun _ => ⟨_, _, rfl⟩) (getField_stays hσ name)
    (getField_stays hσ name) (getField_still _) (getField_still _)
    fun s s' field? field?' _ _ hs hrun hrun' h _ => ?_
  have hleft := getField_eq_ok hrun
  have hright := getField_eq_ok hrun'
  rw [hs.left.program] at hleft
  rw [hs.right.program, hleft] at hright
  subst hright
  cases field? with
  | none => exact .none
  | some field => exact .some (.refl (h field rfl))

/-- Copies declare the same fields, with types that are copies. -/
theorem fieldOf_agrees {t t' : Ty} (ht : t.Alike O t') (name : String) :
    Agree P O config (fieldOf t name) (fieldOf t' name)
      (Option.Rel fun field field' => field.ty.Alike O field'.ty) := by
  have hσ := stays_within hP config
  have hagree : Agree P O config (fieldOf t name) (fieldOf t' name)
      (Option.Rel fun field field' => field.ty.IsCopy field'.ty) := by
    refine Agree.get.bind fun s s' hs => .pure ?_
    have hleft : s.workspace.declarations = P.declarations := by rw [← hs.left.program]; rfl
    have hright : s'.workspace.declarations = P.declarations := by rw [← hs.right.program]; rfl
    rw [hleft, hright]
    exact hP.field?_alike ht.left ht.right ht.copy name
  refine (hagree.and_stays (fieldOf_stays hσ ht.left name) (fieldOf_stays hσ ht.right name)).mono ?_
  rintro _ _ ⟨hfields, hleft, hright⟩
  cases hfields with
  | none => exact .none
  | some hcopy => exact .some ⟨hcopy, hleft _ rfl, hright _ rfl⟩

theorem findMethods_agrees (name : String) :
    Agree P O config (findMethods name) (findMethods name) (CandidatesAlike O) := by
  have hσ := stays_within hP config
  refine .of_stays (fun _ => ⟨_, _, rfl⟩) (fun _ => ⟨_, _, rfl⟩) (findMethods_stays hσ name)
    (findMethods_stays hσ name) (findMethods_moves _) (findMethods_moves _)
    fun s s' ms ms' _ _ hs hrun hrun' h h' => ⟨?_, h, h'⟩
  have hsame : ms = ms' := by
    cases hrun
    cases hrun'
    change s.program.methodsNamed name ++ _ = s'.program.methodsNamed name ++ _
    rw [hs.left.program, hs.right.program]
  subst hsame
  exact List.forall₂_same.2 fun m _ => .refl m

omit hP in
theorem castsAlike {c? c?' : Option Cast} (h : Option.Rel Cast.IsCopy c? c?')
    (hleft : ∀ c ∈ c?, O c.target) (hright : ∀ c ∈ c?', O c.target) :
    Option.Rel (Cast.Alike O) c? c?' := by
  cases h with
  | none => exact .none
  | some hcopy => exact .some ⟨hcopy, hcopy.target, hleft _ rfl, hright _ rfl⟩

section Conversions

variable {a a' b b' : Ty} (ha : a.Alike O a') (hb : b.Alike O b')

include ha hb

/-- The registry looks at nothing that tells copies apart. -/
theorem castBetween_agrees :
    Agree P O config (castBetween a b) (castBetween a' b') (Option.Rel (Cast.Alike O)) := by
  have hσ := stays_within hP config
  have hagree : Agree P O config (castBetween a b) (castBetween a' b') (Option.Rel Cast.IsCopy) :=
    .query (q := fun r => r.cast a b) (p := fun r => r.cast a' b')
      (Library.registry_ignoresNumbers.cast_isCopy ha.copy hb.copy)
  exact (hagree.and_stays (castBetween_stays hσ ha.left hb.left)
    (castBetween_stays hσ ha.right hb.right)).mono fun _ _ h => castsAlike h.1 h.2.1 h.2.2

theorem implicitCast_agrees :
    Agree P O config (implicitCast a b) (implicitCast a' b') (Option.Rel (Cast.Alike O)) := by
  have hσ := stays_within hP config
  have hagree : Agree P O config (implicitCast a b) (implicitCast a' b') (Option.Rel Cast.IsCopy) :=
    .query (q := fun r => r.implicitCast a b) (p := fun r => r.implicitCast a' b')
      (Library.registry_ignoresNumbers.implicitCast_isCopy ha.copy hb.copy)
  exact (hagree.and_stays (implicitCast_stays hσ ha.left hb.left)
    (implicitCast_stays hσ ha.right hb.right)).mono fun _ _ h => castsAlike h.1 h.2.1 h.2.2

theorem commonType_agrees :
    Agree P O config (commonType a b) (commonType a' b') (Option.Rel (Ty.Alike O)) := by
  have hσ := stays_within hP config
  have hagree : Agree P O config (commonType a b) (commonType a' b') (Option.Rel Ty.IsCopy) :=
    .query (q := fun r => r.commonType a b) (p := fun r => r.commonType a' b')
      (Library.registry_ignoresNumbers.commonType_isCopy ha.copy hb.copy)
  refine (hagree.and_stays (commonType_stays hσ ha.left hb.left)
    (commonType_stays hσ ha.right hb.right)).mono ?_
  rintro _ _ ⟨htypes, hleft, hright⟩
  cases htypes with
  | none => exact .none
  | some hcopy => exact .some ⟨hcopy, hleft _ rfl, hright _ rfl⟩

end Conversions

theorem coerce_agrees {n n' : BoundNode} {t t' : Ty} (hn : n.Alike O n') (ht : t.Alike O t') :
    Agree P O config (coerce n t) (coerce n' t') (BoundNode.Alike O) := by
  simp only [coerce, hn.isError, hn.ty.copy.key_eq, ht.copy.key_eq]
  refine .ite (fun _ => .pure hn) fun _ => ?_
  refine (implicitCast_agrees hP hn.ty ht).bind fun c? c?' hc => ?_
  cases hc with
  | some hc => exact .pure (hn.wrap hc)
  | none => exact errorNode_agrees hP _ _ _ _ _ _

theorem resolveType_agrees (node : SyntaxNode) :
    Agree P O config (resolveType node) (resolveType node) (Option.Rel (Ty.Alike O)) := by
  have hreport (d d' : Diagnostic) :
      Agree P O config (do report d; return (none : Option Ty))
        (do report d'; return (none : Option Ty)) (Option.Rel (Ty.Alike O)) :=
    (report_agrees d d').bind fun _ _ _ => .pure .none
  fun_induction resolveType node with
  | case1 text? children span =>
    refine (findType_agrees hP _).bind fun t? t?' ht => ?_
    cases ht with
    | some ht => exact .pure (.some ht)
    | none => exact hreport _ _
  | case2 text? element rest span ih =>
    refine ih.bind fun t? t?' ht => ?_
    cases ht with
    | some ht => exact (arrayOf_agrees hP ht).bind fun _ _ harray => .pure (.some harray)
    | none => exact .pure .none
  | case3 => exact hreport _ _
  | case4 => exact hreport _ _

theorem bindLiteral_agrees (node : SyntaxNode) (kind : LiteralKind) :
    Agree P O config (bindLiteral node kind) (bindLiteral node kind) (BoundNode.Alike O) := by
  unfold bindLiteral
  split
  case h_1 value t hliteral =>
    exact .pure ⟨.refl (hP.builtin (readLiteral_builtin hliteral)), rfl⟩
  case h_2 => exact errorNode_agrees hP _ _ _ _ _ _

theorem bindIdentifier_agrees (node : SyntaxNode) :
    Agree P O config (bindIdentifier node) (bindIdentifier node) (BoundNode.Alike O) := by
  unfold bindIdentifier
  refine (lookupVar_agrees _).bind fun var? var?' hvar => ?_
  cases hvar with
  | some hvar => exact .pure ⟨hvar.ty, rfl⟩
  | none =>
    refine Agree.get.bind fun s s' hs => ?_
    match s.findReceiverField node.text, s'.findReceiverField node.text,
      hs.findReceiverField hP node.text with
    | some (receiver, field), some (receiver', field'), .some ⟨_, hfield⟩ =>
      exact .pure ⟨hfield, rfl⟩
    | none, none, .none =>
      refine (getField_agrees hP _).bind fun field? field?' hfield => ?_
      cases hfield with
      | some hfield => exact .pure ⟨hfield, rfl⟩
      | none => exact errorNode_agrees hP _ _ _ _ _ _

theorem accessField_agrees (node : SyntaxNode) {target target' : BoundNode}
    (h : target.Alike O target') :
    Agree P O config (accessField node target) (accessField node target') (BoundNode.Alike O) := by
  have harray := h.ty.copy.congr Ty.isArray_unnumbered
  simp only [accessField, h.isError, harray]
  refine .ite (fun _ => .pure (failure_alike hP.toClosed _ _ _ _)) fun _ => ?_
  refine .ite (fun _ => .pure ⟨.refl (hP.builtin rfl), rfl⟩) fun _ => ?_
  refine (fieldOf_agrees hP h.ty _).bind fun field? field?' hfield => ?_
  cases hfield with
  | some hfield => exact .pure ⟨hfield, rfl⟩
  | none => exact errorNode_agrees hP _ _ _ _ _ _

/-- Components of copies, each with its own copy. -/
theorem component?_alike {t t' : Ty} (h : t.Alike O t') :
    Option.Rel (Ty.Alike O) t.component? t'.component? := by
  match hc : t.component?, hc' : t'.component?, h.copy.component? with
  | none, none, .none => exact .none
  | some component, some component', .some hcopy =>
    exact .some ⟨hcopy, hP.component h.left hc, hP.component h.right hc'⟩

theorem accessElement_agrees (node : SyntaxNode) {array array' index index' : BoundNode}
    (harray : array.Alike O array') (hindex : index.Alike O index') :
    Agree P O config (accessElement node array index) (accessElement node array' index')
      (BoundNode.Alike O) := by
  simp only [accessElement, harray.isError, hindex.isError]
  refine .ite (fun _ => .pure (failure_alike hP.toClosed _ _ _ _)) fun _ => ?_
  match array.ty.component?, array'.ty.component?, component?_alike hP harray.ty with
  | none, none, .none => exact errorNode_agrees hP _ _ _ _ _ _
  | some component, some component', .some hcomponent =>
    refine (coerce_agrees hP hindex (.refl (hP.builtin rfl))).bind fun index index' hindex => ?_
    simp only [hindex.isError]
    refine .ite (fun _ => .pure (failure_alike hP.toClosed _ _ _ _)) fun _ => ?_
    exact .pure ⟨hcomponent, rfl⟩

section Calls

variable {candidates candidates' : List Method} {arguments arguments' : List BoundNode}
  {name : String} (hcandidates : CandidatesAlike O candidates candidates')
  (harguments : AllAlike O arguments arguments')

omit hP in
theorem buildCall_agrees {selection selection' : Selection} {target target' : Option BoundNode}
    {span : Span} (h : selection.method.returns.Alike O selection'.method.returns) :
    Agree P O config (buildCall selection target arguments span)
      (buildCall selection' target' arguments' span) (BoundNode.Alike O) := by
  have hok (m : Method) (s : BindState) :
      ∃ a t, reportDeprecation m span (.standard config) s = (.ok a, t) := by
    rcases reportDeprecation_cases m span (.standard config) with hskips | ⟨d, -, hreports⟩
    · exact ⟨_, _, hskips s⟩
    · exact ⟨_, _, hreports s⟩
  have hdeprecation : Agree P O config (reportDeprecation selection.method span)
      (reportDeprecation selection'.method span) fun _ _ => True :=
    .of_stays (hok _) (hok _) (reportDeprecation_stays _ _) (reportDeprecation_stays _ _)
      (reportDeprecation_still _ _) (reportDeprecation_still _ _)
      fun _ _ _ _ _ _ _ _ _ _ _ => trivial
  refine hdeprecation.bind fun _ _ _ => .pure ⟨h, ?_⟩
  split <;> split <;> rfl

include hcandidates harguments

/-- What follows the resolution of a call, for each way in which it comes out. -/
theorem resolved_agrees {rest rest' : Resolution → BindM BoundNode}
    (hfound : ∀ selection selection' : Selection,
      selection.method.returns.Alike O selection'.method.returns →
      Agree P O config (rest (.found selection)) (rest' (.found selection')) (BoundNode.Alike O))
    (hnotFound : Agree P O config (rest .notFound) (rest' .notFound) (BoundNode.Alike O))
    (hambiguous : ∀ methods methods',
      Agree P O config (rest (.ambiguous methods)) (rest' (.ambiguous methods'))
        (BoundNode.Alike O)) :
    Agree P O config (resolve candidates name (arguments.map (·.ty)) >>= rest)
      (resolve candidates' name (arguments'.map (·.ty)) >>= rest') (BoundNode.Alike O) := by
  have hσ := stays_within hP config
  have hagree : Agree P O config (resolve candidates name (arguments.map (·.ty)))
      (resolve candidates' name (arguments'.map (·.ty))) Resolution.Alike :=
    .query (q := fun r => Overload.resolve r candidates name (arguments.map (·.ty)))
      (p := fun r => Overload.resolve r candidates' name (arguments'.map (·.ty)))
      (Overload.resolve_alike Library.registry_ignoresNumbers _ hcandidates.alike harguments.copies)
  refine (hagree.and_stays (resolve_stays hσ hcandidates.left harguments.typed.1)
    (resolve_stays hσ hcandidates.right harguments.typed.2)).bind ?_
  rintro _ _ ⟨hresolution, hleft, hright⟩
  cases hresolution with
  | found h =>
    have hreturns := (List.forall_mem_cons.1 (hleft _ rfl).1).1
    have hreturns' := (List.forall_mem_cons.1 (hright _ rfl).1).1
    exact hfound _ _ ⟨h.method.returns, hreturns, hreturns'⟩
  | notFound => exact hnotFound
  | ambiguous methods methods' => exact hambiguous methods methods'

theorem callResolved_agrees {receiver receiver' : Option BoundNode} {span : Span} :
    Agree P O config (callResolved candidates name receiver arguments span)
      (callResolved candidates' name receiver' arguments' span) (BoundNode.Alike O) :=
  resolved_agrees hP hcandidates harguments (fun _ _ h => buildCall_agrees h)
    (errorNode_agrees hP _ _ _ _ _ _) fun _ _ => errorNode_agrees hP _ _ _ _ _ _

omit hcandidates

/-- Copies are constructed alike: their constructors take copies of the same parameters. -/
theorem construct_agrees {t t' : Ty} (ht : t.Alike O t') {span : Span} :
    Agree P O config (construct t arguments span) (construct t' arguments' span)
      (BoundNode.Alike O) := by
  refine Agree.get.bind fun s s' hs => ?_
  have hleft : s.workspace.declarations = P.declarations := by rw [← hs.left.program]; rfl
  have hright : s'.workspace.declarations = P.declarations := by rw [← hs.right.program]; rfl
  rw [hleft, hright]
  have hconstructors : CandidatesAlike O (P.declarations.constructors t)
      (P.declarations.constructors t') :=
    ⟨(hP.members ht.left ht.right ht.copy.key_eq).constructors,
      fun m hm => hP.signature (.constructor ht.left hm),
      fun m hm => hP.signature (.constructor ht.right hm)⟩
  have hname : ((P.declarations.constructors t).head?.map (·.name)).getD t.name =
      ((P.declarations.constructors t').head?.map (·.name)).getD t'.name := by
    match P.declarations.constructors t, P.declarations.constructors t', hconstructors.alike with
    | [], [], _ => exact congrArg TypeKey.render ht.copy.key_eq
    | m :: _, m' :: _, .cons hm _ => exact hm.name
  dsimp only
  rw [hname]
  exact resolved_agrees hP hconstructors harguments (fun _ _ h => buildCall_agrees h)
    (errorNode_agrees hP _ _ _ _ _ _) fun _ _ => errorNode_agrees hP _ _ _ _ _ _

end Calls

theorem castsTo_agrees {t t' : Ty} (ht : t.Alike O t') {operands operands' : List BoundNode}
    (h : AllAlike O operands operands') :
    Agree P O config (castsTo t operands) (castsTo t' operands')
      (Option.Rel (Forall₂ (Cast.Alike O))) := by
  induction h with
  | nil => exact .pure (.some .nil)
  | cons hoperand _ ih =>
    unfold castsTo
    refine (implicitCast_agrees hP hoperand.ty ht).bind fun c? c?' hc => ?_
    cases hc with
    | none => exact .pure .none
    | some hc =>
      refine ih.bind fun casts? casts?' hcasts => .pure ?_
      cases hcasts with
      | none => exact .none
      | some hcasts => exact .some (.cons hc hcasts)

theorem coerceAll_agrees {t t' : Ty} (ht : t.Alike O t') {operands operands' : List BoundNode}
    (h : AllAlike O operands operands') :
    Agree P O config (coerceAll operands t) (coerceAll operands' t') (AllAlike O) := by
  refine (castsTo_agrees hP ht h).bind fun casts? casts?' hcasts => ?_
  cases hcasts with
  | some hcasts => exact .pure (h.wrap_zip hcasts)
  | none => exact .pure h

omit hP in
theorem workingKind?_copies {ts us : List Ty} (h : Forall₂ Ty.IsCopy ts us)
    (kind : Option NumericKind) : workingKind? ts kind = workingKind? us kind := by
  induction h generalizing kind with
  | nil => rfl
  | cons hcopy _ ih =>
    cases kind <;> simp only [workingKind?, hcopy.congr Ty.numericKind?_unnumbered, ih]

omit hP in
/-- What operands are lifted to depends on which of them are numbers, booleans or null. -/
theorem liftedType?_copies {ts us : List Ty} (h : Forall₂ Ty.IsCopy ts us) :
    liftedType? ts = liftedType? us := by
  have hboxed := any_eq_of_rel h fun _ _ hcopy =>
    congrArg Option.isSome (hcopy.congr Ty.boxed?_unnumbered)
  have hpresent : Forall₂ Ty.IsCopy (ts.filter (!·.isNull)) (us.filter (!·.isNull)) :=
    List.rel_filter (fun _ _ hcopy => by simp only [hcopy.isNull_eq]) h
  have htruth : (ts.filter (!·.isNull)).all (·.isBooleanLike) =
      (us.filter (!·.isNull)).all (·.isBooleanLike) := by
    simp only [List.all_eq_not_any_not]
    exact congrArg _ (any_eq_of_rel hpresent fun _ _ hcopy =>
      congrArg _ (hcopy.congr Ty.isBooleanLike_unnumbered))
  unfold liftedType?
  rw [hboxed]
  simp only [htruth, workingKind?_copies hpresent]

theorem liftOperands_agrees (methodName : String) {operands operands' : List BoundNode}
    (h : AllAlike O operands operands') :
    Agree P O config (liftOperands methodName operands) (liftOperands methodName operands')
      (AllAlike O) := by
  have hnull : operands.all (·.ty.isNull) = operands'.all (·.ty.isNull) := by
    simp only [List.all_eq_not_any_not]
    exact congrArg _ (any_eq_of_rel h fun _ _ hn => congrArg _ hn.ty.copy.isNull_eq)
  simp only [liftOperands, hnull, liftedType?_copies h.copies]
  refine .ite (fun _ => coerceAll_agrees hP (.refl (hP.builtin rfl)) h) fun _ => ?_
  refine .ite (fun _ => ?_) fun _ => .pure h
  cases hlifted : liftedType? (operands'.map (·.ty)) with
  | some t => exact coerceAll_agrees hP (.refl (liftedType?_builtin hP.toClosed hlifted)) h
  | none => exact .pure h

theorem operatorCall_agrees (methodName symbol : String) {operands operands' : List BoundNode}
    (span : Span) (h : AllAlike O operands operands') :
    Agree P O config (operatorCall methodName symbol operands span)
      (operatorCall methodName symbol operands' span) (BoundNode.Alike O) := by
  refine (liftOperands_agrees hP _ h).bind fun lifted lifted' hlifted => ?_
  refine (findMethods_agrees hP _).bind fun candidates candidates' hcandidates => ?_
  exact resolved_agrees hP hcandidates hlifted (fun _ _ h => buildCall_agrees h)
    (errorNode_agrees hP _ _ _ _ _ _) fun _ _ => errorNode_agrees hP _ _ _ _ _ _

theorem asCondition_agrees {n n' : BoundNode} (h : n.Alike O n') :
    Agree P O config (asCondition n) (asCondition n') (BoundNode.Alike O) := by
  have htruth := h.ty.copy.congr Ty.isBooleanLike_unnumbered
  simp only [asCondition, h.isError, htruth]
  refine .ite (fun _ => .pure h) fun _ => .ite (fun _ => ?_) fun _ => ?_
  · exact coerce_agrees hP h (.refl (hP.builtin rfl))
  · exact errorNode_agrees hP _ _ _ _ _ _

/-- Branches brought to copies of one type in `O`. -/
def Unified.Alike (O : Ty → Prop) (u u' : Unified) : Prop := u.ty.Alike O u'.ty

omit hP in
theorem box_alike {t t' : Ty} (hO : Ty.Closed O) (h : t.Alike O t') : t.box.Alike O t'.box :=
  ⟨h.copy.box, hO.box h.left, hO.box h.right⟩

section Branches

variable {yes yes' no no' : BoundNode} (hyes : yes.Alike O yes') (hno : no.Alike O no')

include hyes hno

theorem coerceBoth_agrees {t t' : Ty} (ht : t.Alike O t') :
    Agree P O config (coerceBoth yes no t) (coerceBoth yes' no' t') (Unified.Alike O) := by
  refine (coerce_agrees hP hyes ht).bind fun _ _ _ => ?_
  exact (coerce_agrees hP hno ht).bind fun _ _ _ => .pure ht

/-- The settings say in both runs what becomes of branches without a common type. -/
theorem widenedTo_agrees {common common' : Option Ty}
    (hcommon : Option.Rel (Ty.Alike O) common common') :
    Agree P O config (widenedTo yes no common) (widenedTo yes' no' common')
      (Option.Rel (Unified.Alike O)) := by
  cases hcommon with
  | some ht => exact (coerceBoth_agrees hP hyes hno ht).map fun u u' hu => .some hu
  | none =>
    refine Agree.read.bind fun σ σ' ⟨hσ, hσ'⟩ => ?_
    subst hσ hσ'
    cases (BindSettings.standard config).config.wideningFailure with
    | error => exact .pure .none
    | keepBranches =>
      exact (report_agrees _ _).bind fun _ _ _ => .pure (.some (.refl (hP.builtin rfl)))

/-- Copies have a common superclass if the types they copy have one. -/
theorem widenBoth_agrees :
    Agree P O config (widenBoth yes no) (widenBoth yes' no')
      (Option.Rel (Unified.Alike O)) := by
  have hmapped : (commonSuperclass yes.ty no.ty).map Ty.unnumbered =
      (commonSuperclass yes'.ty no'.ty).map Ty.unnumbered := by
    rw [← commonSuperclass_unnumbered, hyes.ty.copy, hno.ty.copy, commonSuperclass_unnumbered]
  cases h : commonSuperclass yes.ty no.ty with
  | some t =>
    rw [h] at hmapped
    obtain ⟨t', h', hcopy⟩ := Option.map_eq_some_iff.1 hmapped.symm
    rw [widenBoth_of_superclass h, widenBoth_of_superclass h']
    refine widenedTo_agrees hP hyes hno (.some ⟨Eq.symm hcopy, ?_, ?_⟩)
    · exact hP.toClosed.commonSuperclass hyes.ty.left h
    · exact hP.toClosed.commonSuperclass hyes.ty.right h'
  | none =>
    rw [h] at hmapped
    rw [widenBoth_of_no_superclass h,
      widenBoth_of_no_superclass (Option.map_eq_none_iff.1 hmapped.symm)]
    refine (commonType_agrees hP hyes.ty hno.ty).bind fun common common' hcommon => ?_
    exact widenedTo_agrees hP hyes hno hcommon

theorem unify_agrees :
    Agree P O config (unify yes no) (unify yes' no') (Option.Rel (Unified.Alike O)) := by
  simp only [unify, hyes.ty.copy.key_eq, hno.ty.copy.key_eq, hyes.ty.copy.isNull_eq,
    hno.ty.copy.isNull_eq]
  refine .ite (fun _ => .pure (.some hyes.ty)) fun _ => .ite (fun _ => ?_) fun _ => ?_
  · refine (coerceBoth_agrees hP hyes hno (box_alike hP.toClosed ?_)).bind
      fun u u' hu => .pure (.some hu)
    split
    · exact hno.ty
    · exact hyes.ty
  · refine (implicitCast_agrees hP hyes.ty hno.ty).bind fun forward forward' hforward => ?_
    refine (implicitCast_agrees hP hno.ty hyes.ty).bind fun backward backward' hbackward => ?_
    cases hforward with
    | some hf =>
      cases hbackward with
      | some hb =>
        simp only [hf.copy.distance_eq, hb.copy.distance_eq]
        exact .ite (fun _ => .pure (.some hno.ty)) fun _ => .pure (.some hyes.ty)
      | none => exact .pure (.some hno.ty)
    | none =>
      cases hbackward with
      | some hb => exact .pure (.some hyes.ty)
      | none => exact widenBoth_agrees hP hyes hno

end Branches

theorem conditional_agrees (node : SyntaxNode) {condition condition' yes yes' : BoundNode}
    {no? no?' : Option BoundNode} (hcondition : condition.Alike O condition')
    (hyes : yes.Alike O yes') (hno : Option.Rel (BoundNode.Alike O) no? no?') :
    Agree P O config (conditional node condition yes no?) (conditional node condition' yes' no?')
      (BoundNode.Alike O) := by
  simp only [conditional, hcondition.isError, hyes.isError]
  refine .ite (fun _ => .pure hcondition) fun _ => ?_
  cases hno with
  | none =>
    refine .ite (fun _ => .pure (failure_alike hP.toClosed _ _ _ _)) fun _ => ?_
    exact .pure ⟨hyes.ty, rfl⟩
  | some hno =>
    simp only [Option.any_some, hno.isError]
    refine .ite (fun _ => .pure (failure_alike hP.toClosed _ _ _ _)) fun _ => ?_
    refine (unify_agrees hP hyes hno).bind fun u? u?' hu => ?_
    cases hu with
    | some hu => exact .pure ⟨hu, rfl⟩
    | none => exact errorNode_agrees hP _ _ _ _ _ _

theorem castTo_agrees (node : SyntaxNode) {operand operand' : BoundNode} {t t' : Ty}
    (h : operand.Alike O operand') (ht : t.Alike O t') :
    Agree P O config (castTo node operand t) (castTo node operand' t') (BoundNode.Alike O) := by
  simp only [castTo, h.isError, h.ty.copy.key_eq, ht.copy.key_eq]
  refine .ite (fun _ => .pure (failure_alike hP.toClosed _ _ _ _)) fun _ => ?_
  refine .ite (fun _ => .pure h) fun _ => ?_
  refine (castBetween_agrees hP h.ty ht).bind fun c? c?' hc => ?_
  cases hc with
  | some hc =>
    have hwrap := h.wrap hc
    exact .pure ⟨hwrap.ty, hwrap.isError⟩
  | none => exact errorNode_agrees hP _ _ _ _ _ _

/-- Both runs fold the same number of elements, and stop at the same one. -/
theorem commonElementType_agrees {current current' : Ty} {elements elements' : List BoundNode}
    (hcurrent : current.Alike O current') (h : AllAlike O elements elements') :
    Agree P O config (commonElementType current elements) (commonElementType current' elements')
      fun result result' =>
        match result, result' with
        | .ok t, .ok t' => t.Alike O t'
        | .error failed, .error failed' => failed.Alike O failed'
        | _, _ => False := by
  induction h generalizing current current' with
  | nil => exact .pure hcurrent
  | cons helement _ ih =>
    unfold commonElementType
    refine (commonType_agrees hP hcurrent helement.ty).bind fun common? common?' hcommon => ?_
    cases hcommon with
    | some hnext => exact ih hnext
    | none => exact (errorNode_agrees hP _ _ _ _ _ _).bind fun _ _ hfailed => .pure hfailed

theorem coerceElements_agrees {component component' : Ty} {elements elements' : List BoundNode}
    (ht : component.Alike O component') (h : AllAlike O elements elements') :
    Agree P O config (coerceElements component elements) (coerceElements component' elements')
      (AllAlike O) := by
  induction h with
  | nil => exact .pure .nil
  | cons helement _ ih =>
    refine (coerce_agrees hP helement ht).bind fun _ _ hfirst => ?_
    exact ih.bind fun _ _ hrest => .pure (.cons hfirst hrest)

theorem buildArray_agrees (node : SyntaxNode) {elements elements' : List BoundNode}
    {common common' : Ty} (h : AllAlike O elements elements') (hcommon : common.Alike O common') :
    Agree P O config (buildArray node elements common) (buildArray node elements' common')
      (BoundNode.Alike O) := by
  have hcomponent : (if common.isNull then Ty.object else common).Alike O
      (if common'.isNull then .object else common') := by
    rw [hcommon.copy.isNull_eq]
    split
    · exact .refl (hP.builtin rfl)
    · exact hcommon
  refine (coerceElements_agrees hP hcomponent h).bind fun _ _ _ => ?_
  exact (arrayOf_agrees hP hcomponent).bind fun _ _ ht => .pure ⟨ht, rfl⟩

theorem declare_agrees (node : SyntaxNode) {t t' : Ty} {initial initial' : BoundNode}
    (ht : t.Alike O t') (h : initial.Alike O initial') :
    Agree P O config (declare node t initial) (declare node t' initial') (BoundNode.Alike O) := by
  refine (coerce_agrees hP h ht).bind fun converted converted' hconverted => ?_
  simp only [hconverted.isError]
  refine .ite (fun _ => .pure (failure_alike hP.toClosed _ _ _ _)) fun _ => ?_
  refine (addVar_agrees _ _ ht _ _).bind fun var? var?' hvar => ?_
  cases hvar with
  | some hvar => exact .pure ⟨hvar.ty, rfl⟩
  | none => exact .pure (failure_alike hP.toClosed _ _ _ _)

/-- Loop variables that look alike, with a conversion of the elements or without one. -/
structure LoopVariable.Alike (O : Ty → Prop) (loop loop' : LoopVariable) : Prop where
  var : loop.var.Alike O loop'.var
  elementCast : loop.elementCast.isNone = loop'.elementCast.isNone

omit hP in
theorem addLoopVar_agrees {name : String} {t t' : Ty} {span : Span} {cast? cast?' : Option Cast}
    (ht : t.Alike O t') (hcast : cast?.isNone = cast?'.isNone) :
    Agree P O config
      (do return (← addVar LocalVar.localNs name t span).map (LoopVariable.mk · cast?))
      (do return (← addVar LocalVar.localNs name t' span).map (LoopVariable.mk · cast?'))
      (Option.Rel (LoopVariable.Alike O)) := by
  refine (addVar_agrees _ _ ht _ _).bind fun var? var?' hvar => .pure ?_
  cases hvar with
  | some hvar => exact .some ⟨hvar, hcast⟩
  | none => exact .none

section LoopVariables

variable (node : SyntaxNode) {element element' declared declared' : Ty}
  (helement : element.Alike O element') (hdeclared : declared.Alike O declared')

include helement

theorem declareLoopVar_agrees (hdeclared : declared.Alike O declared') :
    Agree P O config (declareLoopVar node element declared)
      (declareLoopVar node element' declared') (Option.Rel (LoopVariable.Alike O)) := by
  simp only [declareLoopVar, hdeclared.copy.key_eq, helement.copy.key_eq]
  refine .ite (fun _ => addLoopVar_agrees hdeclared rfl) fun _ => ?_
  refine (implicitCast_agrees hP helement hdeclared).bind fun c? c?' hc => ?_
  cases hc with
  | some hc => exact addLoopVar_agrees hdeclared rfl
  | none => exact (report_agrees _ _).bind fun _ _ _ => .pure .none

theorem namedLoopVar_agrees :
    Agree P O config (namedLoopVar node element) (namedLoopVar node element')
      (Option.Rel (LoopVariable.Alike O)) := by
  have hdeclared : Agree P O config (declaredLoopType node element)
      (declaredLoopType node element') (Option.Rel (Ty.Alike O)) := by
    unfold declaredLoopType
    split
    · exact resolveType_agrees hP _
    · exact .pure (.some helement)
  unfold namedLoopVar
  refine .ite (fun _ => hdeclared.bind fun t? t?' ht => ?_) fun _ => ?_
  · cases ht with
    | some ht => exact declareLoopVar_agrees hP node helement ht
    | none => exact .pure .none
  · exact (report_agrees _ _).bind fun _ _ _ => .pure .none

omit hP in
/-- Both runs see the same names, and make up the same hidden one. -/
theorem hiddenLoopVar_agrees (body : SyntaxNode) :
    Agree P O config (hiddenLoopVar body element) (hiddenLoopVar body element')
      (Option.Rel (LoopVariable.Alike O)) := by
  refine Agree.get.bind fun s s' hs => Agree.read.bind fun σ σ' ⟨hσ, hσ'⟩ => ?_
  subst hσ hσ'
  simp only [hs.hiddenVarName]
  refine (addVar_agrees _ _ helement _ _).bind fun var? var?' hvar => ?_
  cases hvar with
  | some hvar => exact (addReceiver_agrees hvar).bind fun _ _ _ => .pure (.some ⟨hvar, rfl⟩)
  | none => exact .pure .none

end LoopVariables

/-- The type depends on whether elements are converted, as they are in both runs or in neither. -/
theorem aggregateType_agrees (kind : AggregateKind) {source source' body body' : BoundNode}
    {loop loop' : LoopVariable} (hsource : source.Alike O source') (hloop : loop.Alike O loop')
    (hbody : body.Alike O body') :
    Agree P O config (aggregateType kind source loop body) (aggregateType kind source' loop' body')
      (Ty.Alike O) := by
  have harray := hsource.ty.copy.congr Ty.isArray_unnumbered
  have hvoid := hbody.ty.copy.congr Ty.isVoid_unnumbered
  simp only [aggregateType, harray, hvoid, hbody.ty.copy.isNull_eq, hloop.elementCast]
  cases kind with
  | selectAll =>
    exact .ite (fun _ => .pure hsource.ty) fun _ => arrayOf_agrees hP hloop.var.ty
  | selectFirst => exact .pure (box_alike hP.toClosed hloop.var.ty)
  | collect =>
    refine arrayOf_agrees hP ?_
    split
    · exact .refl (hP.builtin rfl)
    · exact hbody.ty

end Actions

/-! ## Binders -/

/-- All children are bound alike. -/
def ChildrenAgree (P : Program) (O : Ty → Prop) (config : Config) (children : List Child) : Prop :=
  ∀ child ∈ children, Agree P O config child.bind child.bind (BoundNode.Alike O)

section Children

variable {child : Child} {rest children : List Child}

theorem ChildrenAgree.head (h : ChildrenAgree P O config (child :: rest)) :
    Agree P O config child.bind child.bind (BoundNode.Alike O) :=
  h child List.mem_cons_self

theorem ChildrenAgree.tail (h : ChildrenAgree P O config (child :: rest)) :
    ChildrenAgree P O config rest :=
  fun other hmem => h other (List.mem_cons_of_mem _ hmem)

theorem bindAll_agrees (h : ChildrenAgree P O config children) :
    Agree P O config (bindAll children) (bindAll children) (AllAlike O) := by
  induction children with
  | nil => exact .pure .nil
  | cons child rest ih =>
    refine h.head.bind fun _ _ hn => (ih h.tail).bind fun _ _ hns => ?_
    exact .pure (.cons hn hns)

end Children

section Binders

variable (hP : P.Uniform O) (node : SyntaxNode) {children : List Child}
  (h : ChildrenAgree P O config children)

include hP

theorem poisoned_alike : node.poisoned.Alike O node.poisoned := failure_alike hP.toClosed _ _ _ _

theorem malformed_agrees (arity : Arity) :
    Agree P O config (malformed node arity) (malformed node arity) (BoundNode.Alike O) :=
  errorNode_agrees hP _ _ _ _ _ _

theorem bindCondition_agrees {child : Child}
    (h : Agree P O config child.bind child.bind (BoundNode.Alike O)) :
    Agree P O config (bindCondition child) (bindCondition child) (BoundNode.Alike O) :=
  h.bind fun _ _ hn => asCondition_agrees hP hn

omit hP in
/-- A body that failed takes its loop with it, in both runs. -/
theorem rel_unless_isError {loop loop' : LoopVariable} {body body' : BoundNode}
    (hloop : loop.Alike O loop') (hbody : body.Alike O body') :
    Option.Rel (fun found found' => found.1.Alike O found'.1 ∧ found.2.Alike O found'.2)
      (if body.isError then none else some (loop, body))
      (if body'.isError then none else some (loop', body')) := by
  rw [hbody.isError]
  split
  · exact .none
  · exact .some ⟨hloop, hbody⟩

theorem bindLoopBody_agrees (kind : AggregateKind) {body : Child}
    {loop? loop?' : Option LoopVariable}
    (hloop : Option.Rel (LoopVariable.Alike O) loop? loop?')
    (hbody : Agree P O config body.bind body.bind (BoundNode.Alike O)) :
    Agree P O config (bindLoopBody kind body loop?) (bindLoopBody kind body loop?')
      (Option.Rel fun found found' => found.1.Alike O found'.1 ∧ found.2.Alike O found'.2) := by
  cases hloop with
  | none => exact .pure .none
  | some hloop =>
    refine .ite (fun _ => ?_) fun _ => ?_
    · refine (bindCondition_agrees hP hbody).bind fun _ _ hbound => .pure ?_
      exact rel_unless_isError hloop hbound
    · exact hbody.bind fun _ _ hbound => .pure (rel_unless_isError hloop hbound)

theorem bindLoop_agrees (kind : AggregateKind) {element element' : Ty} {var? : Option Child}
    {body : Child} (helement : element.Alike O element')
    (hbody : Agree P O config body.bind body.bind (BoundNode.Alike O)) :
    Agree P O config (bindLoop kind element var? body) (bindLoop kind element' var? body)
      (Option.Rel fun found found' => found.1.Alike O found'.1 ∧ found.2.Alike O found'.2) := by
  cases var? with
  | some var =>
    rw [bindLoop_some, bindLoop_some]
    exact (namedLoopVar_agrees hP _ helement).bind fun _ _ hloop =>
      bindLoopBody_agrees hP kind hloop hbody
  | none =>
    rw [bindLoop_none, bindLoop_none]
    exact (hiddenLoopVar_agrees helement _).bind fun _ _ hloop =>
      bindLoopBody_agrees hP kind hloop hbody

theorem bindAggregateOver_agrees (kind : AggregateKind) {source : Child} {var? : Option Child}
    {body : Child} (hsource : Agree P O config source.bind source.bind (BoundNode.Alike O))
    (hbody : Agree P O config body.bind body.bind (BoundNode.Alike O)) :
    Agree P O config (bindAggregateOver node kind source var? body)
      (bindAggregateOver node kind source var? body) (BoundNode.Alike O) := by
  refine hsource.bind fun source source' hsource => ?_
  simp only [hsource.isError]
  refine .ite (fun _ => .pure (poisoned_alike hP node)) fun _ => ?_
  match source.ty.component?, source'.ty.component?, component?_alike hP hsource.ty with
  | none, none, .none => exact errorNode_agrees hP _ _ _ _ _ _
  | some element, some element', .some helement =>
    refine (bindLoop_agrees hP kind helement hbody).inScope.bind fun found? found?' hfound => ?_
    cases hfound with
    | none => exact .pure (poisoned_alike hP node)
    | some hfound =>
      refine (aggregateType_agrees hP kind hsource hfound.1 hfound.2).bind fun _ _ ht => ?_
      exact .pure ⟨ht, rfl⟩

include h

theorem bindFieldAccess_agrees :
    Agree P O config (bindFieldAccess node children) (bindFieldAccess node children)
      (BoundNode.Alike O) := by
  unfold bindFieldAccess
  split
  · exact h.head.bind fun _ _ htarget => accessField_agrees hP node htarget
  · exact malformed_agrees hP node _

theorem bindIndex_agrees :
    Agree P O config (bindIndex node children) (bindIndex node children) (BoundNode.Alike O) := by
  unfold bindIndex
  split
  · refine h.head.bind fun _ _ harray => h.tail.head.bind fun _ _ hindex => ?_
    exact accessElement_agrees hP node harray hindex
  · exact malformed_agrees hP node _

theorem bindMethodCall_agrees :
    Agree P O config (bindMethodCall node children) (bindMethodCall node children)
      (BoundNode.Alike O) := by
  refine (bindAll_agrees h).bind fun arguments arguments' harguments => ?_
  simp only [harguments.any_isError]
  refine .ite (fun _ => .pure (poisoned_alike hP node)) fun _ => ?_
  refine (findMethods_agrees hP _).bind fun candidates candidates' hcandidates => ?_
  exact callResolved_agrees hP hcandidates harguments

/-- Receivers that are copies have the same methods, with signatures that are copies. -/
theorem bindMemberCall_agrees :
    Agree P O config (bindMemberCall node children) (bindMemberCall node children)
      (BoundNode.Alike O) := by
  unfold bindMemberCall
  split
  · exact malformed_agrees hP node _
  · refine h.head.bind fun receiver receiver' hreceiver => ?_
    refine (bindAll_agrees h.tail).bind fun arguments arguments' harguments => ?_
    simp only [hreceiver.isError, harguments.any_isError]
    refine .ite (fun _ => .pure (poisoned_alike hP node)) fun _ => ?_
    refine Agree.get.bind fun s s' hs => ?_
    have hleft : s.workspace.declarations = P.declarations := by rw [← hs.left.program]; rfl
    have hright : s'.workspace.declarations = P.declarations := by rw [← hs.right.program]; rfl
    rw [hleft, hright]
    have ht := hreceiver.ty
    refine callResolved_agrees hP
      ⟨hP.methodsNamed_alike ht.left ht.right ht.copy, ?_, ?_⟩ harguments
    · exact fun m hm => hP.signature (.member ht.left hm)
    · exact fun m hm => hP.signature (.member ht.right hm)

theorem bindNew_agrees :
    Agree P O config (bindNew node children) (bindNew node children) (BoundNode.Alike O) := by
  unfold bindNew
  split
  · exact malformed_agrees hP node _
  · refine (resolveType_agrees hP _).bind fun t? t?' ht => ?_
    refine (bindAll_agrees h.tail).bind fun arguments arguments' harguments => ?_
    cases ht with
    | none => exact .pure (poisoned_alike hP node)
    | some ht =>
      simp only [harguments.any_isError]
      refine .ite (fun _ => .pure (poisoned_alike hP node)) fun _ => ?_
      exact construct_agrees hP harguments ht

theorem bindLogical_agrees (op : BinaryOp) :
    Agree P O config (bindLogical node op children) (bindLogical node op children)
      (BoundNode.Alike O) := by
  unfold bindLogical
  split
  · refine (bindCondition_agrees hP h.head).bind fun left left' hleft => ?_
    refine (bindCondition_agrees hP h.tail.head).bind fun right right' hright => ?_
    simp only [hleft.isError, hright.isError]
    refine .ite (fun _ => .pure (poisoned_alike hP node)) fun _ => ?_
    refine .pure ⟨.refl (hP.builtin rfl), ?_⟩
    split <;> rfl
  · exact malformed_agrees hP node _

theorem bindBinary_agrees (op : BinaryOp) :
    Agree P O config (bindBinary node op children) (bindBinary node op children)
      (BoundNode.Alike O) := by
  unfold bindBinary
  split
  · exact bindLogical_agrees hP node h op
  · split
    · refine h.head.bind fun left left' hleft => h.tail.head.bind fun right right' hright => ?_
      simp only [hleft.isError, hright.isError]
      refine .ite (fun _ => .pure (poisoned_alike hP node)) fun _ => ?_
      exact operatorCall_agrees hP _ _ _ (.cons hleft (.cons hright .nil))
    · exact malformed_agrees hP node _

theorem bindUnary_agrees (op : UnaryOp) :
    Agree P O config (bindUnary node op children) (bindUnary node op children)
      (BoundNode.Alike O) := by
  unfold bindUnary
  split
  · refine h.head.bind fun operand operand' hoperand => ?_
    simp only [hoperand.isError]
    refine .ite (fun _ => .pure (poisoned_alike hP node)) fun _ => ?_
    exact operatorCall_agrees hP _ _ _ (.cons hoperand .nil)
  · exact malformed_agrees hP node _

theorem bindConditional_agrees :
    Agree P O config (bindConditional node children) (bindConditional node children)
      (BoundNode.Alike O) := by
  unfold bindConditional
  split
  · refine (bindCondition_agrees hP h.head).bind fun _ _ hcondition => ?_
    refine h.tail.head.bind fun _ _ hyes => h.tail.tail.head.bind fun _ _ hno => ?_
    exact conditional_agrees hP node hcondition hyes (.some hno)
  · refine .ite (fun _ => malformed_agrees hP node _) fun _ => ?_
    split
    · refine (bindCondition_agrees hP h.head).bind fun _ _ hcondition => ?_
      exact h.tail.head.bind fun _ _ hyes => conditional_agrees hP node hcondition hyes .none
    · exact malformed_agrees hP node _

theorem bindCast_agrees :
    Agree P O config (bindCast node children) (bindCast node children) (BoundNode.Alike O) := by
  unfold bindCast
  split
  · refine (resolveType_agrees hP _).bind fun target? target?' htarget => ?_
    refine h.tail.head.bind fun _ _ hoperand => ?_
    cases htarget with
    | some htarget => exact castTo_agrees hP node hoperand htarget
    | none => exact .pure (poisoned_alike hP node)
  · exact malformed_agrees hP node _

theorem bindNewArray_agrees :
    Agree P O config (bindNewArray node children) (bindNewArray node children)
      (BoundNode.Alike O) := by
  unfold bindNewArray
  split
  · refine (resolveType_agrees hP _).bind fun element? element?' helement => ?_
    refine h.tail.head.bind fun size size' hsize => ?_
    cases helement with
    | none => exact .pure (poisoned_alike hP node)
    | some helement =>
      simp only [hsize.isError]
      refine .ite (fun _ => .pure (poisoned_alike hP node)) fun _ => ?_
      refine (coerce_agrees hP hsize (.refl (hP.builtin rfl))).bind fun size size' hsize => ?_
      simp only [hsize.isError]
      refine .ite (fun _ => .pure (poisoned_alike hP node)) fun _ => ?_
      exact (arrayOf_agrees hP helement).bind fun _ _ ht => .pure ⟨ht, rfl⟩
  · exact malformed_agrees hP node _

theorem bindArrayInit_agrees :
    Agree P O config (bindArrayInit node children) (bindArrayInit node children)
      (BoundNode.Alike O) := by
  refine (bindAll_agrees h).bind fun elements elements' helements => ?_
  simp only [helements.any_isError]
  refine .ite (fun _ => .pure (poisoned_alike hP node)) fun _ => ?_
  cases helements with
  | nil => exact buildArray_agrees hP node .nil (.refl (hP.builtin rfl))
  | cons hfirst hrest =>
    refine (commonElementType_agrees hP hfirst.ty hrest).bind fun result result' hresult => ?_
    cases result with
    | ok common =>
      cases result' with
      | ok common' => exact buildArray_agrees hP node (.cons hfirst hrest) hresult
      | error failed' => exact hresult.elim
    | error failed =>
      cases result' with
      | ok common' => exact hresult.elim
      | error failed' => exact .pure hresult

theorem bindBlock_agrees :
    Agree P O config (bindBlock node children) (bindBlock node children) (BoundNode.Alike O) := by
  refine (bindAll_agrees h).inScope.bind fun statements statements' hstatements => .pure ⟨?_, rfl⟩
  have hlast := List.forall₂_reverse_iff.2 hstatements
  simp only [← List.head?_reverse]
  match statements.reverse, statements'.reverse, hlast with
  | [], [], _ => exact .refl (hP.builtin rfl)
  | _ :: _, _ :: _, .cons hn _ => exact hn.ty

theorem bindVarDecl_agrees :
    Agree P O config (bindVarDecl node children) (bindVarDecl node children)
      (BoundNode.Alike O) := by
  unfold bindVarDecl
  split
  · refine (resolveType_agrees hP _).bind fun declared? declared?' hdeclared => ?_
    refine h.tail.head.bind fun _ _ hinitial => ?_
    cases hdeclared with
    | some ht => exact declare_agrees hP node ht hinitial
    | none => exact .pure (poisoned_alike hP node)
  · exact malformed_agrees hP node _

theorem bindAggregate_agrees (kind : AggregateKind) :
    Agree P O config (bindAggregate node kind children) (bindAggregate node kind children)
      (BoundNode.Alike O) := by
  unfold bindAggregate
  split
  · exact bindAggregateOver_agrees hP node kind h.head h.tail.head
  · exact bindAggregateOver_agrees hP node kind h.head h.tail.tail.head
  · exact malformed_agrees hP node _

/-- The kind of a node chooses one binder for both runs. -/
theorem bindKind_agrees :
    Agree P O config (bindKind node children) (bindKind node children) (BoundNode.Alike O) := by
  unfold bindKind
  split
  · exact bindLiteral_agrees hP node _
  · exact bindIdentifier_agrees hP node
  · exact bindFieldAccess_agrees hP node h
  · exact bindIndex_agrees hP node h
  · exact bindMethodCall_agrees hP node h
  · exact bindMemberCall_agrees hP node h
  · exact bindBinary_agrees hP node h _
  · exact bindUnary_agrees hP node h _
  · exact bindCast_agrees hP node h
  · exact bindConditional_agrees hP node h
  · exact bindConditional_agrees hP node h
  · exact bindNew_agrees hP node h
  · exact bindNewArray_agrees hP node h
  · exact bindArrayInit_agrees hP node h
  · exact bindAggregate_agrees hP node h _
  · exact bindBlock_agrees hP node h
  · exact bindVarDecl_agrees hP node h
  · exact errorNode_agrees hP _ _ _ _ _ _
  · exact errorNode_agrees hP _ _ _ _ _ _
  · exact errorNode_agrees hP _ _ _ _ _ _

end Binders

/-- Both runs are equally deep, so that they reach the limit together. -/
theorem nested_agrees (hP : P.Uniform O) (span : Span) {act : BindM BoundNode}
    (h : Agree P O config act act (BoundNode.Alike O)) :
    Agree P O config (nested span act) (nested span act) (BoundNode.Alike O) := by
  intro s s' hs
  by_cases hdepth : s.depth < (BindSettings.standard config).config.maxBindDepth
  · have hends := h _ _ (hs.withDepth (congrArg (· + 1) hs.depth))
    match hact : act (.standard config) { s with depth := s.depth + 1 },
        hact' : act (.standard config) { s' with depth := s'.depth + 1 } with
    | (r, s₁), (r', s₁') =>
      rw [hact, hact'] at hends
      rw [nested_of_lt hdepth hact, nested_of_lt (hs.depth ▸ hdepth) hact']
      cases hends with
      | ok hs₁ hn => exact .ok (hs₁.withDepth (congrArg (· - 1) hs₁.depth)) hn
      | error e => exact .error e
  · rw [nested_of_not_lt hdepth, nested_of_not_lt (hs.depth ▸ hdepth)]
    exact errorNode_agrees hP _ _ _ _ _ _ s s' hs

mutual

/-- In contexts that look alike a tree is bound to nodes that look alike. -/
theorem bind_agrees (hP : P.Uniform O) :
    ∀ node : SyntaxNode, Agree P O config (bind node) (bind node) (BoundNode.Alike O)
  | ⟨kind, text?, children, span⟩ => by
    unfold bind
    exact nested_agrees hP span (bindKind_agrees hP _ (childrenOf_agree hP children))

theorem childrenOf_agree (hP : P.Uniform O) :
    ∀ nodes : List SyntaxNode, ChildrenAgree P O config (childrenOf nodes)
  | [] => by simp [childrenOf, ChildrenAgree]
  | node :: rest => by
    intro child hmem
    rw [childrenOf] at hmem
    rcases List.mem_cons.1 hmem with rfl | hmem
    · exact bind_agrees hP node
    · exact childrenOf_agree hP rest child hmem

end

end RuleExpr

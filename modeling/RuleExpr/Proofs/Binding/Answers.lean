import RuleExpr.Program
import RuleExpr.Proofs.Binding.Conversions

/-!
# Answers of Binding

Whatever binding answers is an elaboration of the tree, and an answer that is an error node was
reported.  There is one lemma for each binder; it takes for granted that the children are bound as
they should be, and ends in an `Outcome`: the node could not be bound, or it follows from the rules
of elaboration.
-/

namespace RuleExpr

open BindM BindState

variable {σ : BindSettings} {s s₁ s' : BindState}

/-- What binding a tree answers. -/
structure Answers (σ : BindSettings) (node : SyntaxNode) (s : BindState) (n : BoundNode)
    (s' : BindState) : Prop where
  elaborates : Elaborates σ node s n s'
  reports : n.isError → s.Reports s'

/-- What binding trees one after the other answers. -/
structure AllAnswers (σ : BindSettings) (nodes : List SyntaxNode) (s : BindState)
    (ns : List BoundNode) (s' : BindState) : Prop where
  elaborates : ElaboratesAll σ nodes s ns s'
  reports : ∀ n ∈ ns, n.isError → s.Reports s'

/-- What a binder answers with: it reports an error, or builds a node. -/
inductive Outcome (σ : BindSettings) (node : SyntaxNode) (s : BindState) (n : BoundNode)
    (s' : BindState) : Prop
  | failed (hn : n.isError) (hreports : s.Reports s')
  | bound (h : Rule σ (Elaborates σ) node s n s') (hn : n.isError = false)

theorem Outcome.of_error {node : SyntaxNode} {n : BoundNode} (h : n.isError ∧ s.Reports s') :
    Outcome σ node s n s' :=
  .failed h.1 h.2

/-- An outcome answers a tree once the context is known to be extended. -/
theorem Outcome.answers {node : SyntaxNode} {n : BoundNode} (h : Outcome σ node s n s')
    (hextends : s.Extends s') : Answers σ node s n s' := by
  cases h with
  | failed hn hreports => exact ⟨.rule (.failure hn hextends), fun _ => hreports⟩
  | bound h hn => exact ⟨.rule h, fun herror => by simp [hn] at herror⟩

/-- All children are answered in contexts where receivers are recorded as they should be. -/
def ChildrenAnswer (σ : BindSettings) (children : List Child) : Prop :=
  ∀ child ∈ children, ∀ ⦃s : BindState⦄ ⦃n : BoundNode⦄ ⦃s' : BindState⦄, s.WellScoped →
    child.bind σ s = (.ok n, s') → Answers σ child.node s n s'

namespace ChildrenAnswer

variable {child : Child} {rest : List Child}

theorem head (h : ChildrenAnswer σ (child :: rest)) {n : BoundNode} (hs : s.WellScoped)
    (hrun : child.bind σ s = (.ok n, s')) : Answers σ child.node s n s' :=
  h child List.mem_cons_self hs hrun

theorem tail (h : ChildrenAnswer σ (child :: rest)) : ChildrenAnswer σ rest :=
  fun other hmem => h other (List.mem_cons_of_mem _ hmem)

end ChildrenAnswer

theorem Answers.extends {node : SyntaxNode} {n : BoundNode} (h : Answers σ node s n s')
    (hs : s.WellScoped) : s.Extends s' :=
  h.elaborates.extends hs

namespace Answers

variable {node : SyntaxNode} {n : BoundNode}

theorem wellScoped (h : Answers σ node s n s') (hs : s.WellScoped) : s'.WellScoped :=
  (h.extends hs).wellScoped hs

theorem before (h : Answers σ node s n s₁) (hq : s₁.Quiet s') : Answers σ node s n s' :=
  ⟨h.elaborates.before hq, fun herror => (h.reports herror).before hq.diagnostics⟩

theorem after (h : Answers σ node s₁ n s') (hq : s.Quiet s₁) : Answers σ node s n s' :=
  ⟨h.elaborates.after hq, fun herror => (h.reports herror).after hq.diagnostics⟩

theorem cons {nodes : List SyntaxNode} {ns : List BoundNode} (hs : s.WellScoped)
    (h : Answers σ node s n s₁) (hall : AllAnswers σ nodes s₁ ns s') :
    AllAnswers σ (node :: nodes) s (n :: ns) s' := by
  have hfirst := (h.extends hs).diagnostics
  have hlast := (hall.elaborates.extends (h.wellScoped hs)).diagnostics
  refine ⟨.cons h.elaborates hall.elaborates, ?_⟩
  intro other hmem herror
  rcases List.mem_cons.1 hmem with rfl | hmem
  · exact (h.reports herror).before hlast
  · exact (hall.reports other hmem herror).after hfirst

theorem singleton (h : Answers σ node s n s') : AllAnswers σ [node] s [n] s' :=
  ⟨.cons h.elaborates (.nil (.refl s')), fun _ hmem herror =>
    h.reports (List.mem_singleton.1 hmem ▸ herror)⟩

end Answers

namespace AllAnswers

variable {nodes : List SyntaxNode} {ns : List BoundNode}

theorem before (h : AllAnswers σ nodes s ns s₁) (hq : s₁.Quiet s') : AllAnswers σ nodes s ns s' :=
  ⟨h.elaborates.before hq, fun n hn herror => (h.reports n hn herror).before hq.diagnostics⟩

theorem after (h : AllAnswers σ nodes s₁ ns s') (hq : s.Quiet s₁) : AllAnswers σ nodes s ns s' :=
  ⟨h.elaborates.after hq, fun n hn herror => (h.reports n hn herror).after hq.diagnostics⟩

theorem reports_of_any (h : AllAnswers σ nodes s ns s') (hany : ns.any (·.isError) = true) :
    s.Reports s' := by
  obtain ⟨n, hn, herror⟩ := List.any_eq_true.1 hany
  exact h.reports n hn herror

end AllAnswers

/-- Each child is bound in the context that the one before it left. -/
theorem bindAll_answers {children : List Child} {ns : List BoundNode}
    (h : ChildrenAnswer σ children) (hs : s.WellScoped)
    (hrun : bindAll children σ s = (.ok ns, s')) :
    AllAnswers σ (children.map (·.node)) s ns s' := by
  induction children generalizing ns s with
  | nil =>
    obtain ⟨rfl, rfl⟩ := pure_eq_ok.1 hrun
    exact ⟨.nil (.refl _), fun n hn => by cases hn⟩
  | cons child rest ih =>
    obtain ⟨n, s₁, hchild, hrest⟩ := bind_eq_ok.1 hrun
    obtain ⟨ns', s₂, hns, hpure⟩ := bind_eq_ok.1 hrest
    obtain ⟨rfl, rfl⟩ := pure_eq_ok.1 hpure
    have hfirst := h.head hs hchild
    exact hfirst.cons hs (ih h.tail (hfirst.wellScoped hs) hns)

/-- A child behind a type answers as it would without the type, and a type that nothing is found
for was reported before the child was bound. -/
theorem ChildrenAnswer.behindType {type child : Child} {rest : List Child} {node : SyntaxNode}
    {t? : Option Ty} {b : BoundNode} (h : ChildrenAnswer σ (type :: child :: rest))
    (hs : s.WellScoped) (htype : resolveType node σ s = (.ok t?, s₁))
    (hchild : child.bind σ s₁ = (.ok b, s')) :
    Answers σ child.node s b s' ∧ (t? = none → s.Reports s') := by
  have hq := ((resolveType_still _).of_run htype).1
  have hs₁ := (hq.extends hs.scopes).wellScoped hs
  have hanswer := h.tail.head hs₁ hchild
  refine ⟨hanswer.after hq, ?_⟩
  rintro rfl
  exact (resolveType_reports htype).before (hanswer.extends hs₁).diagnostics

/-- A binder stops at a child that is an error, which was reported, and otherwise goes on with
bound children. -/
theorem AllAnswers.poisoned_or_bound {node : SyntaxNode} {nodes : List SyntaxNode}
    {bs : List BoundNode} {n : BoundNode} {test : Bool} {rest : BindM BoundNode}
    (hall : AllAnswers σ nodes s bs s₁) (htest : test = bs.any (·.isError))
    (hrun : (if test = true then pure node.poisoned else rest) σ s₁ = (.ok n, s')) :
    n.isError ∧ s.Reports s' ∨ AllBound bs ∧ rest σ s₁ = (.ok n, s') := by
  subst htest
  split at hrun
  case isTrue herror =>
    obtain ⟨rfl, rfl⟩ := pure_eq_ok.1 hrun
    exact .inl ⟨rfl, hall.reports_of_any herror⟩
  case isFalse hbound => exact .inr ⟨AllBound.of_any hbound, hrun⟩

/-- The children of a strict node are the bound ones, converted afterwards. -/
theorem Outcome.strict {node : SyntaxNode} {kids : List SyntaxNode} {bs : List BoundNode}
    {n : BoundNode} (hs : s.WellScoped) (hkind : node.kind.opensScope = false)
    (hkids : kids.Sublist node.children) (hall : AllAnswers σ kids s bs s₁) (hbs : AllBound bs)
    (hconverted : ConvertedAll σ.registry bs n.children) (hq : s₁.Quiet s')
    (hstrict : Strict σ.registry s₁.program n.shape n.ty)
    (herror : ∀ c ∈ n.children, c.isError → s₁.Reports s') (hn : n.isError = false) :
    Outcome σ node s n s' := by
  have hextends := hall.elaborates.extends hs
  have hchildren := (hall.elaborates.converted hs hbs hconverted).before hq
  refine .bound (.strict hkind hkids hchildren (hextends.program ▸ hstrict) ?_) hn
  exact fun c hc he => (herror c hc he).after hextends.diagnostics

theorem AllBound.no_reports {ns : List BoundNode} (h : AllBound ns) :
    ∀ c ∈ ns, c.isError → s.Reports s' := by
  intro c hc herror
  simp [h c hc] at herror

/-- The length of an array is a node of its own, and other fields belong to the type. -/
theorem accessField_outcome {node child : SyntaxNode} {target n : BoundNode} (hs : s.WellScoped)
    (hkind : node.kind.opensScope = false) (hmem : child ∈ node.children)
    (htarget : Answers σ child s target s₁)
    (hrun : accessField node target σ s₁ = (.ok n, s')) : Outcome σ node s n s' := by
  have hq := ((accessField_still _ _).of_run hrun).1
  have hkids : [child].Sublist node.children := List.singleton_sublist.2 hmem
  unfold accessField at hrun
  rcases htarget.singleton.poisoned_or_bound (by simp) hrun with hfailed | ⟨hbs, hrest⟩
  · exact .of_error hfailed
  · have hconverted := convertedAll_refl σ.registry [target]
    split at hrest
    case isTrue hlength =>
      obtain ⟨rfl, rfl⟩ := pure_eq_ok.1 hrest
      have harray : target.ty.isArray := (Bool.and_eq_true _ _ ▸ hlength).1
      exact .strict hs hkind hkids htarget.singleton hbs hconverted hq (.arrayLength harray)
        hbs.no_reports rfl
    case isFalse =>
      obtain ⟨field?, s₂, hfield, hrest⟩ := bind_eq_ok.1 hrest
      obtain ⟨context, s₃, hget, hpure⟩ := bind_eq_ok.1 hfield
      obtain ⟨hcontext, hs₃⟩ := get_eq_ok.1 hget
      subst hcontext hs₃
      obtain ⟨rfl, rfl⟩ := pure_eq_ok.1 hpure
      cases hfound : s₃.workspace.declarations.field? target.ty node.text with
      | some field =>
        rw [hfound] at hrest
        obtain ⟨rfl, rfl⟩ := pure_eq_ok.1 hrest
        exact .strict hs hkind hkids htarget.singleton hbs hconverted hq (.fieldAccess hfound)
          hbs.no_reports rfl
      | none =>
        rw [hfound] at hrest
        obtain ⟨hn, hreports⟩ := errorNode_reports hrest
        exact .failed hn (hreports.after (htarget.extends hs).diagnostics)

theorem accessElement_outcome {node : SyntaxNode} {array index n : BoundNode}
    (hs : s.WellScoped) (hkind : node.kind.opensScope = false)
    (hall : AllAnswers σ node.children s [array, index] s₁)
    (hrun : accessElement node array index σ s₁ = (.ok n, s')) : Outcome σ node s n s' := by
  have hq := ((accessElement_still _ _ _).of_run hrun).1
  have hextends := hall.elaborates.extends hs
  unfold accessElement at hrun
  rcases hall.poisoned_or_bound (by simp) hrun with hfailed | ⟨hbs, hrest⟩
  · exact .of_error hfailed
  · cases hcomponent : array.ty.component? with
    | none =>
      rw [hcomponent] at hrest
      obtain ⟨hn, hreports⟩ := errorNode_reports hrest
      exact .failed hn (hreports.after hextends.diagnostics)
    | some component =>
      rw [hcomponent] at hrest
      obtain ⟨position, s₂, hcoerce, hrest⟩ := bind_eq_ok.1 hrest
      obtain ⟨hposition, hreports⟩ := coerce_converts (hbs index (by simp)) hcoerce
      split at hrest
      case isTrue herror =>
        obtain ⟨rfl, rfl⟩ := pure_eq_ok.1 hrest
        exact .failed rfl ((hreports herror).after hextends.diagnostics)
      case isFalse hposition' =>
        obtain ⟨rfl, rfl⟩ := pure_eq_ok.1 hrest
        refine .strict hs hkind (List.Sublist.refl _) hall hbs ?_ hq
          (.arrayElement hcomponent ⟨_, hposition⟩) ?_ rfl
        · exact .cons ⟨_, .same rfl⟩ (.cons ⟨_, hposition⟩ .nil)
        · refine AllBound.no_reports fun c hc => ?_
          rcases List.mem_cons.1 hc with rfl | hc
          · exact hbs _ List.mem_cons_self
          · simpa [List.mem_singleton.1 hc] using hposition'

theorem CallOf.children_eq {r : Registry} {candidates : List Method} {arguments : List BoundNode}
    {n : BoundNode} (call : CallOf r candidates none arguments n) :
    n.children = call.converted := by
  unfold BoundNode.children
  rw [call.shape_eq]
  by_cases hkind : call.method.head.kind = .constructor
  · rw [if_pos hkind]
  · rw [if_neg hkind]
    rfl

theorem CallOf.isError_eq {r : Registry} {candidates : List Method} {receiver : Option BoundNode}
    {arguments : List BoundNode} {n : BoundNode} (call : CallOf r candidates receiver arguments n) :
    n.isError = false := by
  unfold BoundNode.isError
  rw [call.shape_eq]
  by_cases hkind : call.method.head.kind = .constructor
  · rw [if_pos hkind]
  · rw [if_neg hkind]

/-- A method that is not static is no constructor. -/
theorem CallOf.eq_methodCall {r : Registry} {candidates : List Method}
    {receiver : Option BoundNode} {arguments : List BoundNode} {n : BoundNode}
    (call : CallOf r candidates receiver arguments n)
    (hmember : call.method.head.isStatic = false) :
    n = ⟨.methodCall call.method receiver call.converted, call.method.returns, n.span⟩ := by
  have hkind : call.method.head.kind ≠ .constructor := by
    intro hconstructor
    simp [MethodHead.isStatic, hconstructor] at hmember
  have hshape := call.shape_eq
  rw [if_neg hkind] at hshape
  rw [← hshape, ← call.ty_eq]
  cases n
  rfl

theorem CallOf.strict {r : Registry} {P : Program} {candidates : List Method}
    {arguments : List BoundNode} {n : BoundNode} (call : CallOf r candidates none arguments n)
    (hm : P.Callable none call.method) : Strict r P n.shape n.ty := by
  rw [call.shape_eq, call.ty_eq]
  split
  case isTrue hkind => exact .construct hm hkind call.fits
  case isFalse hkind => exact .call hm hkind call.fits

/-- A call without a receiver is a strict node. -/
theorem Outcome.call {node : SyntaxNode} {kids : List SyntaxNode} {bs : List BoundNode}
    {candidates : List Method} {n : BoundNode} (hs : s.WellScoped)
    (hkind : node.kind.opensScope = false) (hkids : kids.Sublist node.children)
    (hall : AllAnswers σ kids s bs s₁) (hbs : AllBound bs) (hq : s₁.Quiet s')
    (call : CallOf σ.registry candidates none bs n)
    (hm : ∀ m ∈ candidates, s₁.program.Callable none m) : Outcome σ node s n s' := by
  refine .strict hs hkind hkids hall hbs ?_ hq (call.strict (hm _ call.mem)) ?_ call.isError_eq
  · rw [call.children_eq]
    exact call.converts
  · rw [call.children_eq]
    exact call.bound.no_reports

theorem Program.callable_of_mem {P : Program} {name : String} :
    ∀ m ∈ P.methodsNamed name ++ Library.operatorsNamed name, P.Callable none m := by
  intro m hm
  rcases List.mem_append.1 hm with hm | hm
  · exact .free hm
  · exact .operator hm

theorem bindMethodCall_outcome {node : SyntaxNode} {children : List Child} {n : BoundNode}
    (hs : s.WellScoped) (hkind : node.kind.opensScope = false)
    (hnodes : node.children = children.map (·.node)) (h : ChildrenAnswer σ children)
    (hrun : bindMethodCall node children σ s = (.ok n, s')) : Outcome σ node s n s' := by
  obtain ⟨arguments, s₁, hall, hrest⟩ := bind_eq_ok.1 hrun
  have hall := bindAll_answers h hs hall
  have hextends := hall.elaborates.extends hs
  rcases hall.poisoned_or_bound rfl hrest with hfailed | ⟨hbs, hrest⟩
  · exact .of_error hfailed
  · obtain ⟨methods, s₂, hmethods, hcall⟩ := bind_eq_ok.1 hrest
    obtain ⟨rfl, hs₂⟩ := findMethods_eq_ok hmethods
    subst hs₂
    have hq := ((callResolved_still _ _ _ _ _).of_run hcall).1
    rcases callResolved_builds hbs hcall with ⟨hn, hreports⟩ | ⟨kept, call, hkept⟩
    · exact .failed hn (hreports.after hextends.diagnostics)
    · rw [ite_self] at hkept
      subst hkept
      exact .call hs hkind (hnodes ▸ List.Sublist.refl _) hall hbs hq call
        Program.callable_of_mem

/-- A static method drops the receiver it is called on, but not what the receiver reported. -/
theorem bindMemberCall_outcome {node : SyntaxNode} {children : List Child} {n : BoundNode}
    (hs : s.WellScoped) (hkind : node.kind = .memberCall)
    (hnodes : node.children = children.map (·.node)) (h : ChildrenAnswer σ children)
    (hrun : bindMemberCall node children σ s = (.ok n, s')) : Outcome σ node s n s' := by
  cases children with
  | nil => exact .of_error (malformed_reports hrun)
  | cons child rest =>
    obtain ⟨receiver, s₁, hreceiver, hrest⟩ := bind_eq_ok.1 hrun
    obtain ⟨arguments, s₂, harguments, hrest⟩ := bind_eq_ok.1 hrest
    have hreceiver := h.head hs hreceiver
    have harguments := bindAll_answers h.tail (hreceiver.wellScoped hs) harguments
    have hall : AllAnswers σ node.children s (receiver :: arguments) s₂ :=
      hnodes ▸ hreceiver.cons hs harguments
    have hextends := hall.elaborates.extends hs
    rcases hall.poisoned_or_bound (by simp) hrest with hfailed | ⟨hbs, hrest⟩
    · exact .of_error hfailed
    · obtain ⟨context, s₃, hget, hcall⟩ := bind_eq_ok.1 hrest
      obtain ⟨hcontext, hs₃⟩ := get_eq_ok.1 hget
      subst hcontext hs₃
      have hq := ((callResolved_still _ _ _ _ _).of_run hcall).1
      have hargs : AllBound arguments := fun b hb => hbs b (List.mem_cons_of_mem _ hb)
      rcases callResolved_builds hargs hcall with ⟨hn, hreports⟩ | ⟨kept, call, hkept⟩
      · exact .failed hn (hreports.after hextends.diagnostics)
      · have hconverted : ConvertedAll σ.registry (receiver :: arguments)
            (receiver :: call.converted) := .cons ⟨_, .same rfl⟩ call.converts
        have hchildren := (hall.elaborates.converted hs hbs hconverted).before hq
        have hmem : call.method ∈ s.program.declarations.methodsNamed receiver.ty node.text :=
          hextends.program ▸ call.mem
        split at hkept
        case isTrue hstatic =>
          subst hkept
          -- The receiver is dropped here, but it was bound, which the rule asks for.
          refine .bound (.staticCall hkind rfl (call.children_eq ▸ hchildren)
            (call.strict (.static hmem hstatic)) (hbs receiver List.mem_cons_self) ?_)
            call.isError_eq
          rw [call.children_eq]
          exact call.bound.no_reports
        case isFalse hmember =>
          subst hkept
          have hmember := Bool.eq_false_iff.2 hmember
          have hm : s.program.Callable (some receiver.ty) call.method := .member hmem hmember
          rw [call.eq_methodCall hmember]
          refine .bound (.memberCall hkind rfl hchildren hm call.fits ?_) rfl
          refine AllBound.no_reports fun c hc => ?_
          rcases List.mem_cons.1 hc with rfl | hc
          · exact hbs _ List.mem_cons_self
          · exact call.bound c hc

theorem bindNew_outcome {node : SyntaxNode} {children : List Child} {n : BoundNode}
    (hs : s.WellScoped) (hkind : node.kind.opensScope = false)
    (hnodes : node.children = children.map (·.node)) (h : ChildrenAnswer σ children)
    (hrun : bindNew node children σ s = (.ok n, s')) : Outcome σ node s n s' := by
  cases children with
  | nil => exact .of_error (malformed_reports hrun)
  | cons type rest =>
    obtain ⟨t?, s₁, ht, hrest⟩ := bind_eq_ok.1 hrun
    obtain ⟨arguments, s₂, hall, hrest⟩ := bind_eq_ok.1 hrest
    have hq := ((resolveType_still _).of_run ht).1
    have hs₁ := (hq.extends hs.scopes).wellScoped hs
    have hall := bindAll_answers h.tail hs₁ hall
    have hextends := hall.elaborates.extends hs₁
    have hgrows := hq.diagnostics.trans hextends.diagnostics
    replace hall := hall.after hq
    cases t? with
    | none =>
      obtain ⟨rfl, rfl⟩ := pure_eq_ok.1 hrest
      exact .failed rfl ((resolveType_reports ht).before hextends.diagnostics)
    | some t =>
      rcases hall.poisoned_or_bound rfl hrest with hfailed | ⟨hbs, hrest⟩
      · exact .of_error hfailed
      · have hq' := ((construct_still _ _ _).of_run hrest).1
        rcases construct_builds hbs hrest with ⟨hn, hreports⟩ | ⟨⟨call⟩⟩
        · exact .failed hn (hreports.after hgrows)
        · refine .call hs hkind ?_ hall hbs hq' call fun m hm => .constructor hm
          rw [hnodes]
          exact List.sublist_cons_self _ _

theorem operatorCall_outcome {node : SyntaxNode} {methodName symbol : String}
    {operands : List BoundNode} {n : BoundNode} (hs : s.WellScoped)
    (hkind : node.kind.opensScope = false) (hall : AllAnswers σ node.children s operands s₁)
    (hbs : AllBound operands)
    (hrun : operatorCall methodName symbol operands node.span σ s₁ = (.ok n, s')) :
    Outcome σ node s n s' := by
  have hq := ((operatorCall_still _ _ _ _).of_run hrun).1
  have hextends := hall.elaborates.extends hs
  rcases operatorCall_builds hbs hrun with ⟨hn, hreports⟩ | ⟨lifted, hlifted, hbound, ⟨call⟩⟩
  · exact .failed hn (hreports.after hextends.diagnostics)
  · have hall : AllAnswers σ node.children s lifted s₁ :=
      ⟨hall.elaborates.converted hs hbs hlifted, hbound.no_reports⟩
    exact .call hs hkind (List.Sublist.refl _) hall hbound hq call Program.callable_of_mem

/-- A condition ends as a boolean, or as the error node of a conversion that was reported. -/
theorem bindCondition_answers {child : Child} {rest : List Child} {c : BoundNode}
    (hs : s.WellScoped) (h : ChildrenAnswer σ (child :: rest))
    (hrun : bindCondition child σ s = (.ok c, s')) :
    Answers σ child.node s c s' ∧ Fits σ.registry .boolean c := by
  obtain ⟨b, s₁, hchild, hrest⟩ := bind_eq_ok.1 hrun
  have hanswer := h.head hs hchild
  have hq := ((asCondition_still _).of_run hrest).1
  cases hb : b.isError with
  | true =>
    unfold asCondition at hrest
    rw [hb, if_pos rfl] at hrest
    obtain ⟨rfl, rfl⟩ := pure_eq_ok.1 hrest
    exact ⟨hanswer, b, .failed hb⟩
  | false =>
    obtain ⟨hc, hreports⟩ := asCondition_converts hb hrest
    refine ⟨⟨(hanswer.elaborates.converted hs hb hc).before hq, ?_⟩, b, hc⟩
    exact fun herror => (hreports herror).after (hanswer.extends hs).diagnostics

theorem bindLogical_outcome {node : SyntaxNode} {op : BinaryOp} {children : List Child}
    {n : BoundNode} (hs : s.WellScoped) (hkind : node.kind = .binary op)
    (hop : op.methodName? = none) (hnodes : node.children = children.map (·.node))
    (h : ChildrenAnswer σ children)
    (hrun : bindLogical node op children σ s = (.ok n, s')) : Outcome σ node s n s' := by
  unfold bindLogical at hrun
  split at hrun
  case h_1 leftChild rightChild =>
    obtain ⟨left, s₁, hleft, hrest⟩ := bind_eq_ok.1 hrun
    obtain ⟨right, s₂, hright, hrest⟩ := bind_eq_ok.1 hrest
    obtain ⟨hleft, hleftFits⟩ := bindCondition_answers hs h hleft
    obtain ⟨hright, hrightFits⟩ := bindCondition_answers (hleft.wellScoped hs) h.tail hright
    have hall : AllAnswers σ node.children s [left, right] s₂ :=
      hnodes ▸ hleft.cons hs hright.singleton
    rcases hall.poisoned_or_bound (by simp) hrest with hfailed | ⟨hbs, hrest⟩
    · exact .of_error hfailed
    · obtain ⟨rfl, rfl⟩ := pure_eq_ok.1 hrest
      refine .bound (.logical hkind hop rfl hall.elaborates hleftFits hrightFits hbs.no_reports) ?_
      unfold BoundNode.isError
      by_cases hor : op = .or
      · rw [if_pos hor]
      · rw [if_neg hor]
  case h_2 => exact .of_error (malformed_reports hrun)

theorem bindBinary_outcome {node : SyntaxNode} {op : BinaryOp} {children : List Child}
    {n : BoundNode} (hs : s.WellScoped) (hkind : node.kind = .binary op)
    (hnodes : node.children = children.map (·.node)) (h : ChildrenAnswer σ children)
    (hrun : bindBinary node op children σ s = (.ok n, s')) : Outcome σ node s n s' := by
  unfold bindBinary at hrun
  cases hop : op.methodName? with
  | none =>
    rw [hop] at hrun
    exact bindLogical_outcome hs hkind hop hnodes h hrun
  | some methodName =>
    rw [hop] at hrun
    dsimp only at hrun
    split at hrun
    case h_1 leftChild rightChild =>
      obtain ⟨left, s₁, hleft, hrest⟩ := bind_eq_ok.1 hrun
      obtain ⟨right, s₂, hright, hrest⟩ := bind_eq_ok.1 hrest
      have hleft := h.head hs hleft
      have hright := h.tail.head (hleft.wellScoped hs) hright
      have hall : AllAnswers σ node.children s [left, right] s₂ :=
        hnodes ▸ hleft.cons hs hright.singleton
      rcases hall.poisoned_or_bound (by simp) hrest with hfailed | ⟨hbs, hrest⟩
      · exact .of_error hfailed
      · exact operatorCall_outcome hs (by rw [hkind]; rfl) hall hbs hrest
    case h_2 => exact .of_error (malformed_reports hrun)

theorem bindUnary_outcome {node : SyntaxNode} {op : UnaryOp} {children : List Child}
    {n : BoundNode} (hs : s.WellScoped) (hkind : node.kind.opensScope = false)
    (hnodes : node.children = children.map (·.node)) (h : ChildrenAnswer σ children)
    (hrun : bindUnary node op children σ s = (.ok n, s')) : Outcome σ node s n s' := by
  unfold bindUnary at hrun
  split at hrun
  case h_1 child =>
    obtain ⟨operand, s₁, hoperand, hrest⟩ := bind_eq_ok.1 hrun
    have hoperand := h.head hs hoperand
    have hall : AllAnswers σ node.children s [operand] s₁ := hnodes ▸ hoperand.singleton
    rcases hall.poisoned_or_bound (by simp) hrest with hfailed | ⟨hbs, hrest⟩
    · exact .of_error hfailed
    · exact operatorCall_outcome hs hkind hall hbs hrest
  case h_2 => exact .of_error (malformed_reports hrun)

/-- Unified branches behind their condition. -/
theorem Outcome.unified {node : SyntaxNode} {condition yes no : BoundNode} {u : Unified}
    (hs : s.WellScoped) (hkind : node.kind = .ternary ∨ node.kind = .conditional)
    (hall : AllAnswers σ node.children s [condition, yes, no] s₁)
    (hbs : AllBound [condition, yes, no]) (hcondition : Fits σ.registry .boolean condition)
    (hu : Unified.Of σ yes no u) (hreports : u.yes.isError ∨ u.no.isError → s₁.Reports s')
    (hq : s₁.Quiet s') :
    Outcome σ node s ⟨.conditional condition u.yes (some u.no), u.ty, node.span⟩ s' := by
  have hconverted : ConvertedAll σ.registry [condition, yes, no] [condition, u.yes, u.no] :=
    .cons ⟨_, .same rfl⟩ (.cons hu.yes (.cons hu.no .nil))
  have hchildren := (hall.elaborates.converted hs hbs hconverted).before hq
  have hgrows := (hall.elaborates.extends hs).diagnostics
  refine .bound (.conditional hkind rfl hchildren hcondition ?_ ?_) rfl
  · refine hu.fits.imp_left fun hfits branch hbranch => ?_
    rcases List.mem_pair.1 hbranch with rfl | rfl
    · exact hfits.1
    · exact hfits.2
  · intro c hc herror
    rcases List.mem_cons.1 hc with rfl | hc
    · exact absurd herror (Bool.eq_false_iff.1 (hbs c List.mem_cons_self))
    · rcases List.mem_pair.1 hc with rfl | rfl
      · exact (hreports (.inl herror)).after hgrows
      · exact (hreports (.inr herror)).after hgrows

/-- The branches are unified after all three parts are bound. -/
theorem conditional_outcome {node : SyntaxNode} {condition yes n : BoundNode}
    {no? : Option BoundNode} (hs : s.WellScoped)
    (hkind : node.kind = .ternary ∨ node.kind = .conditional)
    (hall : AllAnswers σ node.children s (condition :: yes :: no?.toList) s₁)
    (hcondition : Fits σ.registry .boolean condition)
    (hrun : conditional node condition yes no? σ s₁ = (.ok n, s')) : Outcome σ node s n s' := by
  have hextends := hall.elaborates.extends hs
  unfold conditional at hrun
  split at hrun
  case isTrue herror =>
    obtain ⟨rfl, rfl⟩ := pure_eq_ok.1 hrun
    exact .failed herror (hall.reports _ List.mem_cons_self herror)
  case isFalse hbound =>
    split at hrun
    case isTrue herror =>
      obtain ⟨rfl, rfl⟩ := pure_eq_ok.1 hrun
      refine .failed rfl (hall.reports_of_any ?_)
      cases no? <;> simp_all
    case isFalse hbranches =>
      cases no? with
      | none =>
        obtain ⟨rfl, rfl⟩ := pure_eq_ok.1 hrun
        have hbs : AllBound [condition, yes] := AllBound.of_any (by simp_all)
        refine .bound (.conditional hkind rfl hall.elaborates hcondition (.inl ?_) hbs.no_reports)
          rfl
        intro branch hbranch
        rw [List.mem_singleton.1 hbranch]
        exact ⟨yes, .same rfl⟩
      | some no =>
        have hbs : AllBound [condition, yes, no] := AllBound.of_any (by simp_all)
        obtain ⟨u?, s₂, hunify, hrest⟩ := bind_eq_ok.1 hrun
        have hunified := unify_unifies (hbs yes (by simp)) (hbs no (by simp)) hunify
        have hq := ((unify_still _ _).of_run hunify).1
        cases u? with
        | none =>
          obtain ⟨hn, hreports⟩ := errorNode_reports hrest
          exact .failed hn (hreports.after (hextends.diagnostics.trans hq.diagnostics))
        | some u =>
          obtain ⟨rfl, rfl⟩ := pure_eq_ok.1 hrest
          obtain ⟨hu, hreports⟩ := hunified u rfl
          exact .unified hs hkind hall hbs hcondition hu hreports hq

theorem bindConditional_outcome {node : SyntaxNode} {children : List Child} {n : BoundNode}
    (hs : s.WellScoped) (hkind : node.kind = .ternary ∨ node.kind = .conditional)
    (hnodes : node.children = children.map (·.node)) (h : ChildrenAnswer σ children)
    (hrun : bindConditional node children σ s = (.ok n, s')) : Outcome σ node s n s' := by
  unfold bindConditional at hrun
  split at hrun
  case h_1 =>
    obtain ⟨condition, s₁, hcondition, hrest⟩ := bind_eq_ok.1 hrun
    obtain ⟨yes, s₂, hyes, hrest⟩ := bind_eq_ok.1 hrest
    obtain ⟨no, s₃, hno, hrest⟩ := bind_eq_ok.1 hrest
    obtain ⟨hcondition, hfits⟩ := bindCondition_answers hs h hcondition
    have hyes := h.tail.head (hcondition.wellScoped hs) hyes
    have hno := h.tail.tail.head (hyes.wellScoped (hcondition.wellScoped hs)) hno
    have hbranches := hyes.cons (hcondition.wellScoped hs) hno.singleton
    have hall : AllAnswers σ node.children s (condition :: yes :: (some no).toList) s₃ :=
      hnodes ▸ hcondition.cons hs hbranches
    exact conditional_outcome hs hkind hall hfits hrest
  case h_2 =>
    split at hrun
    · exact .of_error (malformed_reports hrun)
    · split at hrun
      case h_1 =>
        obtain ⟨condition, s₁, hcondition, hrest⟩ := bind_eq_ok.1 hrun
        obtain ⟨yes, s₂, hyes, hrest⟩ := bind_eq_ok.1 hrest
        obtain ⟨hcondition, hfits⟩ := bindCondition_answers hs h hcondition
        have hyes := h.tail.head (hcondition.wellScoped hs) hyes
        have hall : AllAnswers σ node.children s (condition :: yes :: Option.toList none) s₂ :=
          hnodes ▸ hcondition.cons hs hyes.singleton
        exact conditional_outcome hs hkind hall hfits hrest
      case h_2 => exact .of_error (malformed_reports hrun)

theorem bindCast_outcome {node : SyntaxNode} {children : List Child} {n : BoundNode}
    (hs : s.WellScoped) (hkind : node.kind = .cast)
    (hnodes : node.children = children.map (·.node)) (h : ChildrenAnswer σ children)
    (hrun : bindCast node children σ s = (.ok n, s')) : Outcome σ node s n s' := by
  unfold bindCast at hrun
  split at hrun
  case h_1 typeChild child =>
    obtain ⟨target?, s₁, htarget, hrest⟩ := bind_eq_ok.1 hrun
    obtain ⟨operand, s₂, hoperand, hrest⟩ := bind_eq_ok.1 hrest
    obtain ⟨hanswer, huntyped⟩ := h.behindType hs htarget hoperand
    have hmem : child.node ∈ node.children := by simp [hnodes]
    cases target? with
    | none =>
      obtain ⟨rfl, rfl⟩ := pure_eq_ok.1 hrest
      exact .failed rfl (huntyped rfl)
    | some target =>
      change castTo node operand target σ s₂ = _ at hrest
      unfold castTo at hrest
      rcases hanswer.singleton.poisoned_or_bound (by simp) hrest with hfailed | ⟨hbs, hrest⟩
      · exact .of_error hfailed
      · have hb := hbs operand List.mem_cons_self
        split at hrest
        case isTrue hkey =>
          -- A cast to its own type leaves the operand as it is, its span too.
          obtain ⟨rfl, rfl⟩ := pure_eq_ok.1 hrest
          obtain ⟨shape, t, span⟩ := operand
          exact .bound (.operand span hkind hmem hanswer.elaborates) hb
        case isFalse =>
          obtain ⟨cast?, s₃, hfound, hrest⟩ := bind_eq_ok.1 hrest
          obtain ⟨hcast, hs₃⟩ := castBetween_eq_ok hfound
          subst hs₃
          cases cast? with
          | none =>
            obtain ⟨hn, hreports⟩ := errorNode_reports hrest
            exact .failed hn (hreports.after (hanswer.extends hs).diagnostics)
          | some cast =>
            obtain ⟨rfl, rfl⟩ := pure_eq_ok.1 hrest
            have hwrapped := hanswer.elaborates.converted hs hb (.cast hcast)
            exact .bound (.operand node.span hkind hmem hwrapped) (wrap_isError hb)
  case h_2 => exact .of_error (malformed_reports hrun)

theorem bindNewArray_outcome {node : SyntaxNode} {children : List Child} {n : BoundNode}
    (hs : s.WellScoped) (hkind : node.kind.opensScope = false)
    (hnodes : node.children = children.map (·.node)) (h : ChildrenAnswer σ children)
    (hrun : bindNewArray node children σ s = (.ok n, s')) : Outcome σ node s n s' := by
  unfold bindNewArray at hrun
  split at hrun
  case h_1 typeChild child =>
    obtain ⟨element?, s₁, helement, hrest⟩ := bind_eq_ok.1 hrun
    obtain ⟨size, s₂, hsize, hrest⟩ := bind_eq_ok.1 hrest
    obtain ⟨hanswer, huntyped⟩ := h.behindType hs helement hsize
    have hkids : [child.node].Sublist node.children := List.singleton_sublist.2 (by simp [hnodes])
    cases element? with
    | none =>
      obtain ⟨rfl, rfl⟩ := pure_eq_ok.1 hrest
      exact .failed rfl (huntyped rfl)
    | some element =>
      rcases hanswer.singleton.poisoned_or_bound (by simp) hrest with hfailed | ⟨hbs, hrest⟩
      · exact .of_error hfailed
      · obtain ⟨converted, s₃, hcoerce, hrest⟩ := bind_eq_ok.1 hrest
        obtain ⟨hconverted, hreports⟩ := coerce_converts (hbs size List.mem_cons_self) hcoerce
        have hq₁ := ((coerce_still _ _).of_run hcoerce).1
        split at hrest
        case isTrue herror =>
          obtain ⟨rfl, rfl⟩ := pure_eq_ok.1 hrest
          exact .failed rfl ((hreports herror).after (hanswer.extends hs).diagnostics)
        case isFalse hbound' =>
          obtain ⟨t, s₄, harray, hpure⟩ := bind_eq_ok.1 hrest
          obtain ⟨rfl, rfl⟩ := pure_eq_ok.1 hpure
          have hq₂ := ((arrayOf_still _).of_run harray).1
          have hcs : AllBound [converted] := AllBound.of_any (by simpa using hbound')
          exact .strict hs hkind hkids hanswer.singleton hbs (.cons ⟨_, hconverted⟩ .nil)
            (hq₁.trans hq₂) (.newArray ⟨_, hconverted⟩ (arrayOf_eq_ok harray)) hcs.no_reports rfl
  case h_2 => exact .of_error (malformed_reports hrun)

theorem buildArray_outcome {node : SyntaxNode} {elements : List BoundNode} {common : Ty}
    {n : BoundNode} (hs : s.WellScoped) (hkind : node.kind.opensScope = false)
    (hall : AllAnswers σ node.children s elements s₁) (hbs : AllBound elements)
    (hrun : buildArray node elements common σ s₁ = (.ok n, s')) : Outcome σ node s n s' := by
  obtain ⟨cs, s₂, hcoerce, hrest⟩ := bind_eq_ok.1 hrun
  obtain ⟨t, s₃, harray, hpure⟩ := bind_eq_ok.1 hrest
  obtain ⟨rfl, rfl⟩ := pure_eq_ok.1 hpure
  obtain ⟨hconverted, helements⟩ := coerceElements_converts hbs hcoerce
  have hq₁ := ((coerceElements_still _ _).of_run hcoerce).1
  have hq₂ := ((arrayOf_still _).of_run harray).1
  refine .strict hs hkind (List.Sublist.refl _) hall hbs hconverted (hq₁.trans hq₂)
    (.arrayInit (fun c hc => (helements c hc).1) (arrayOf_eq_ok harray)) ?_ rfl
  exact fun c hc herror => ((helements c hc).2 herror).before hq₂.diagnostics

theorem bindArrayInit_outcome {node : SyntaxNode} {children : List Child} {n : BoundNode}
    (hs : s.WellScoped) (hkind : node.kind.opensScope = false)
    (hnodes : node.children = children.map (·.node)) (h : ChildrenAnswer σ children)
    (hrun : bindArrayInit node children σ s = (.ok n, s')) : Outcome σ node s n s' := by
  obtain ⟨elements, s₁, helements, hrest⟩ := bind_eq_ok.1 hrun
  have hall : AllAnswers σ node.children s elements s₁ := hnodes ▸ bindAll_answers h hs helements
  have hextends := hall.elaborates.extends hs
  rcases hall.poisoned_or_bound rfl hrest with hfailed | ⟨hbs, hrest⟩
  · exact .of_error hfailed
  · cases elements with
    | nil => exact buildArray_outcome hs hkind hall hbs hrest
    | cons first rest =>
      obtain ⟨common, s₂, hcommon, hrest⟩ := bind_eq_ok.1 hrest
      have hq := ((commonElementType_still _ _).of_run hcommon).1
      cases common with
      | ok common => exact buildArray_outcome hs hkind (hall.before hq) hbs hrest
      | error failed =>
        obtain ⟨rfl, rfl⟩ := pure_eq_ok.1 hrest
        obtain ⟨hn, hreports⟩ := commonElementType_reports hcommon
        exact .failed hn (hreports.after hextends.diagnostics)

theorem inScope_eq_ok {α : Type} {act : BindM α} {a : α}
    (hrun : inScope act σ s = (.ok a, s')) :
    ∃ s₁, act σ s.pushScope = (.ok a, s₁) ∧ s' = s₁.closeScope := by
  unfold inScope at hrun
  match hact : act σ s.pushScope with
  | (r, s₁) =>
    rw [hact] at hrun
    cases hrun
    exact ⟨s₁, rfl, rfl⟩

/-- A report stays when the scope is closed. -/
theorem BindState.Reports.closed {s s₁ : BindState} (h : s.pushScope.Reports s₁) :
    s.Reports s₁.closeScope := by
  obtain ⟨new, hnew, herror⟩ := h
  obtain ⟨scopes, receivers, hclosed⟩ := closeScope_eq s₁
  rw [hclosed]
  exact ⟨new, hnew, herror⟩

theorem bindBlock_outcome {node : SyntaxNode} {children : List Child} {n : BoundNode}
    (hs : s.WellScoped) (hkind : node.kind = .block)
    (hnodes : node.children = children.map (·.node)) (h : ChildrenAnswer σ children)
    (hrun : bindBlock node children σ s = (.ok n, s')) : Outcome σ node s n s' := by
  obtain ⟨statements, s₁, hscope, hpure⟩ := bind_eq_ok.1 hrun
  obtain ⟨rfl, rfl⟩ := pure_eq_ok.1 hpure
  obtain ⟨s₂, hall, rfl⟩ := inScope_eq_ok hscope
  have hall := bindAll_answers h (pushScope_wellScoped hs) hall
  exact .bound (.block hkind (hnodes ▸ hall.elaborates) (.refl _)
    fun c hc herror => (hall.reports c hc herror).closed) rfl

/-- The initial value is bound before the variable exists. -/
theorem bindVarDecl_outcome {node : SyntaxNode} {children : List Child} {n : BoundNode}
    (hs : s.WellScoped) (hkind : node.kind = .varDecl)
    (hnodes : node.children = children.map (·.node)) (h : ChildrenAnswer σ children)
    (hrun : bindVarDecl node children σ s = (.ok n, s')) : Outcome σ node s n s' := by
  unfold bindVarDecl at hrun
  split at hrun
  case h_1 typeChild child =>
    obtain ⟨declared?, s₁, hdeclared, hrest⟩ := bind_eq_ok.1 hrun
    obtain ⟨initial, s₂, hinitial, hrest⟩ := bind_eq_ok.1 hrest
    obtain ⟨hanswer, huntyped⟩ := h.behindType hs hdeclared hinitial
    have hgrows := (hanswer.extends hs).diagnostics
    have hmem : child.node ∈ node.children := by simp [hnodes]
    cases declared? with
    | none =>
      obtain ⟨rfl, rfl⟩ := pure_eq_ok.1 hrest
      exact .failed rfl (huntyped rfl)
    | some t =>
      obtain ⟨converted, s₃, hcoerce, hrest⟩ := bind_eq_ok.1 hrest
      have hq := ((coerce_still _ _).of_run hcoerce).1
      cases hb : initial.isError with
      | true =>
        unfold coerce at hcoerce
        rw [hb, Bool.true_or, if_pos rfl] at hcoerce
        obtain ⟨rfl, rfl⟩ := pure_eq_ok.1 hcoerce
        rw [hb, if_pos rfl] at hrest
        obtain ⟨rfl, rfl⟩ := pure_eq_ok.1 hrest
        exact .failed rfl (hanswer.reports hb)
      | false =>
        obtain ⟨hconverted, hreports⟩ := coerce_converts hb hcoerce
        split at hrest
        case isTrue herror =>
          obtain ⟨rfl, rfl⟩ := pure_eq_ok.1 hrest
          exact .failed rfl ((hreports herror).after hgrows)
        case isFalse hbound =>
          obtain ⟨var?, s₄, hadd, hrest⟩ := bind_eq_ok.1 hrest
          cases var? with
          | none =>
            obtain ⟨rfl, rfl⟩ := pure_eq_ok.1 hrest
            exact .failed rfl ((addVar_eq_none hadd).after (hgrows.trans hq.diagnostics))
          | some var =>
            obtain ⟨rfl, rfl⟩ := pure_eq_ok.1 hrest
            obtain ⟨hadds, hreceivers, rfl⟩ := addVar_eq_some hadd
            have hchild := (hanswer.elaborates.converted hs hb hconverted).before hq
            exact .bound (.varDecl hkind hmem hchild ⟨_, hconverted⟩ hadds hreceivers
              (Bool.eq_false_iff.2 hbound)) rfl
  case h_2 => exact .of_error (malformed_reports hrun)

/-! ## Aggregates -/

/-- A loop over elements of type `element` declares its variable. -/
structure DeclaresLoop (σ : BindSettings) (element : Ty) (s : BindState) (loop : LoopVariable)
    (s' : BindState) : Prop where
  adds : s.Adds loop.var s'
  cast : LoopCast σ.registry element loop.var.ty loop.elementCast

/-- Whether a loop variable was declared, or something was reported. -/
def LoopOutcome (σ : BindSettings) (element : Ty) (s : BindState) (loop? : Option LoopVariable)
    (s' : BindState) : Prop :=
  match loop? with
  | some loop => DeclaresLoop σ element s loop s'
  | none => s.Reports s'

theorem LoopOutcome.after {element : Ty} {loop? : Option LoopVariable}
    (h : LoopOutcome σ element s₁ loop? s') (hq : s.Quiet s₁) :
    LoopOutcome σ element s loop? s' := by
  cases loop? with
  | some loop => exact ⟨h.adds.after hq, h.cast⟩
  | none => exact Reports.after h hq.diagnostics

theorem addLoopVar_outcome {name : String} {element declared : Ty} {span : Span}
    {cast? : Option Cast} {loop? : Option LoopVariable}
    (hcast : LoopCast σ.registry element declared cast?)
    (hrun : (addVar LocalVar.localNs name declared span >>= fun var? =>
      pure (var?.map (LoopVariable.mk · cast?))) σ s = (.ok loop?, s')) :
    LoopOutcome σ element s loop? s' := by
  obtain ⟨var?, s₁, hadd, hpure⟩ := bind_eq_ok.1 hrun
  obtain ⟨rfl, rfl⟩ := pure_eq_ok.1 hpure
  cases var? with
  | none => exact addVar_eq_none hadd
  | some var =>
    obtain ⟨hadds, -, rfl⟩ := addVar_eq_some hadd
    exact ⟨hadds, hcast⟩

/-- Elements are converted if the variable is declared with a type that is not theirs. -/
theorem declareLoopVar_outcome {node : SyntaxNode} {element declared : Ty}
    {loop? : Option LoopVariable}
    (hrun : declareLoopVar node element declared σ s = (.ok loop?, s')) :
    LoopOutcome σ element s loop? s' := by
  unfold declareLoopVar at hrun
  dsimp only at hrun
  split at hrun
  case isTrue hkey => exact addLoopVar_outcome (.same hkey) hrun
  case isFalse hkey =>
    obtain ⟨cast?, s₁, hfound, hrest⟩ := bind_eq_ok.1 hrun
    obtain ⟨hcast, hs₁⟩ := implicitCast_eq_ok.1 hfound
    subst hs₁
    cases cast? with
    | some cast =>
      rcases Registry.implicitCast_eq_some hcast with ⟨hsame, -⟩ | hcast
      · exact absurd hsame.symm hkey
      · exact addLoopVar_outcome (.cast hcast) hrest
    | none =>
      obtain ⟨u, s₂, hreport, hpure⟩ := bind_eq_ok.1 hrest
      obtain ⟨rfl, rfl⟩ := pure_eq_ok.1 hpure
      exact reportError_reports hreport

theorem namedLoopVar_outcome {node : SyntaxNode} {element : Ty} {loop? : Option LoopVariable}
    (hrun : namedLoopVar node element σ s = (.ok loop?, s')) :
    LoopOutcome σ element s loop? s' := by
  unfold namedLoopVar at hrun
  split at hrun
  · obtain ⟨declared?, s₁, hdeclared, hrest⟩ := bind_eq_ok.1 hrun
    have hq := ((declaredLoopType_still _ _).of_run hdeclared).1
    cases declared? with
    | some declared => exact (declareLoopVar_outcome hrest).after hq
    | none =>
      obtain ⟨rfl, rfl⟩ := pure_eq_ok.1 hrest
      unfold declaredLoopType at hdeclared
      cases hchildren : node.children with
      | nil =>
        rw [hchildren] at hdeclared
        cases hdeclared
      | cons type rest =>
        rw [hchildren] at hdeclared
        exact resolveType_reports hdeclared
  · obtain ⟨u, s₁, hreport, hpure⟩ := bind_eq_ok.1 hrun
    obtain ⟨rfl, rfl⟩ := pure_eq_ok.1 hpure
    exact reportError_reports hreport

theorem hiddenLoopVar_outcome {body : SyntaxNode} {element : Ty} {loop? : Option LoopVariable}
    (hrun : hiddenLoopVar body element σ s = (.ok loop?, s')) :
    LoopOutcome σ element s loop? s' := by
  obtain ⟨context, s₁, hget, hrest⟩ := bind_eq_ok.1 hrun
  obtain ⟨hcontext, hs₁⟩ := get_eq_ok.1 hget
  subst hcontext hs₁
  obtain ⟨settings, s₂, hread, hrest⟩ := bind_eq_ok.1 hrest
  obtain ⟨hsettings, hs₂⟩ := read_eq_ok.1 hread
  subst hsettings hs₂
  obtain ⟨var?, s₃, hadd, hrest⟩ := bind_eq_ok.1 hrest
  cases var? with
  | none =>
    obtain ⟨rfl, rfl⟩ := pure_eq_ok.1 hrest
    exact addVar_eq_none hadd
  | some var =>
    obtain ⟨u, s₄, hreceiver, hpure⟩ := bind_eq_ok.1 hrest
    obtain ⟨rfl, rfl⟩ := pure_eq_ok.1 hpure
    cases hreceiver
    obtain ⟨hadds, hreceivers, rfl⟩ := addVar_eq_some hadd
    refine ⟨⟨hadds.scopes, hadds.slot, hadds.nextSlot, .inr ?_, hadds.diagnostics,
      hadds.program, hadds.owner⟩, .same rfl⟩
    have hdepth : s₃.scopeDepth = s₂.scopeDepth := by
      rw [scopeDepth, scopeDepth, hadds.scopes]
      cases s₂.scopes <;> rfl
    rw [← hdepth, ← hreceivers]

/-- A loop variable and the body bound with it. -/
structure BindsLoop (σ : BindSettings) (kind : AggregateKind) (element : Ty) (last : SyntaxNode)
    (s : BindState) (loop : LoopVariable) (body : BoundNode) (s' : BindState) : Prop where
  declared : ∃ s₁, DeclaresLoop σ element s loop s₁ ∧ Elaborates σ last s₁ body s'
  filter : kind.isFilter → Fits σ.registry .boolean body
  bound : body.isError = false

def BodyOutcome (σ : BindSettings) (kind : AggregateKind) (element : Ty) (last : SyntaxNode)
    (s : BindState) (answer : Option (LoopVariable × BoundNode)) (s' : BindState) : Prop :=
  match answer with
  | some (loop, body) => BindsLoop σ kind element last s loop body s'
  | none => s.Reports s'

/-- A body that is given up has reported an error. -/
theorem bindLoopBody_outcome {kind : AggregateKind} {element : Ty} {body : Child}
    {loop? : Option LoopVariable} {s₁ : BindState} {answer : Option (LoopVariable × BoundNode)}
    (hs : s.WellScoped) (h : ChildrenAnswer σ [body]) (hloop : LoopOutcome σ element s loop? s₁)
    (hrun : bindLoopBody kind body loop? σ s₁ = (.ok answer, s')) :
    BodyOutcome σ kind element body.node s answer s' := by
  cases loop? with
  | none =>
    obtain ⟨rfl, rfl⟩ := pure_eq_ok.1 hrun
    exact hloop
  | some loop =>
    have hfills := hloop.adds.fills hs.scopes
    have hs₁ := hfills.wellScoped hs
    have hbody : ∃ n s₂, Answers σ body.node s₁ n s₂ ∧
        (kind.isFilter → Fits σ.registry .boolean n) ∧
        (pure (if n.isError then none else some (loop, n)) : BindM _) σ s₂ = (.ok answer, s') := by
      rw [bindLoopBody] at hrun
      split at hrun
      case isTrue hfilter =>
        obtain ⟨n, s₂, hn, hpure⟩ := bind_eq_ok.1 hrun
        obtain ⟨hanswer, hfits⟩ := bindCondition_answers hs₁ h hn
        exact ⟨n, s₂, hanswer, fun _ => hfits, hpure⟩
      case isFalse hfilter =>
        obtain ⟨n, s₂, hn, hpure⟩ := bind_eq_ok.1 hrun
        exact ⟨n, s₂, h.head hs₁ hn, fun hkind => absurd hkind hfilter, hpure⟩
    obtain ⟨n, s₂, hanswer, hfits, hpure⟩ := hbody
    obtain ⟨rfl, rfl⟩ := pure_eq_ok.1 hpure
    cases hn : n.isError with
    | true =>
      rw [if_pos rfl]
      exact (hanswer.reports hn).after hfills.diagnostics
    | false =>
      rw [if_neg Bool.false_ne_true]
      exact ⟨⟨s₁, hloop, hanswer.elaborates⟩, hfits, hn⟩

theorem bindLoop_outcome {kind : AggregateKind} {element : Ty} {var? : Option Child}
    {body : Child} {answer : Option (LoopVariable × BoundNode)} (hs : s.WellScoped)
    (h : ChildrenAnswer σ [body])
    (hrun : bindLoop kind element var? body σ s = (.ok answer, s')) :
    BodyOutcome σ kind element body.node s answer s' := by
  cases var? with
  | some var =>
    rw [bindLoop_some] at hrun
    obtain ⟨loop?, s₁, hloop, hrest⟩ := bind_eq_ok.1 hrun
    exact bindLoopBody_outcome hs h (namedLoopVar_outcome hloop) hrest
  | none =>
    rw [bindLoop_none] at hrun
    obtain ⟨loop?, s₁, hloop, hrest⟩ := bind_eq_ok.1 hrun
    exact bindLoopBody_outcome hs h (hiddenLoopVar_outcome hloop) hrest

theorem aggregateType_eq_ok {kind : AggregateKind} {source body : BoundNode}
    {loop : LoopVariable} {t : Ty}
    (hrun : aggregateType kind source loop body σ s = (.ok t, s')) :
    AggregateTy kind source.ty loop.var.ty loop.elementCast body.ty t := by
  cases kind with
  | selectAll =>
    unfold aggregateType at hrun
    dsimp only at hrun
    split at hrun
    case isTrue hkeep =>
      obtain ⟨rfl, rfl⟩ := pure_eq_ok.1 hrun
      rw [Bool.and_eq_true, Option.isNone_iff_eq_none] at hkeep
      exact .inl ⟨hkeep.1, hkeep.2, rfl⟩
    case isFalse => exact .inr (arrayOf_eq_ok hrun)
  | selectFirst =>
    obtain ⟨rfl, rfl⟩ := pure_eq_ok.1 hrun
    rfl
  | collect => exact arrayOf_eq_ok hrun

theorem bindAggregateOver_outcome {node : SyntaxNode} {kind : AggregateKind} {source : Child}
    {var? : Option Child} {body : Child} {rest : List SyntaxNode} {n : BoundNode}
    (hs : s.WellScoped) (hkind : node.kind = .aggregate kind)
    (hnodes : node.children = source.node :: rest) (hmem : body.node ∈ rest)
    (hsource : ChildrenAnswer σ [source]) (hbody : ChildrenAnswer σ [body])
    (hrun : bindAggregateOver node kind source var? body σ s = (.ok n, s')) :
    Outcome σ node s n s' := by
  obtain ⟨array, s₁, harray, hrest⟩ := bind_eq_ok.1 hrun
  have harray := hsource.head hs harray
  have hextends := harray.extends hs
  have hs₁ := harray.wellScoped hs
  rcases harray.singleton.poisoned_or_bound (by simp) hrest with hfailed | ⟨hbs, hrest⟩
  · exact .of_error hfailed
  · cases helement : array.ty.component? with
    | none =>
      rw [helement] at hrest
      obtain ⟨hn, hreports⟩ := errorNode_reports hrest
      exact .failed hn (hreports.after hextends.diagnostics)
    | some element =>
      rw [helement] at hrest
      obtain ⟨answer, s₂, hscope, hrest⟩ := bind_eq_ok.1 hrest
      obtain ⟨s₃, hloop, rfl⟩ := inScope_eq_ok hscope
      replace hloop := bindLoop_outcome (pushScope_wellScoped hs₁) hbody hloop
      cases answer with
      | none =>
        obtain ⟨rfl, rfl⟩ := pure_eq_ok.1 hrest
        exact .failed rfl ((BindState.Reports.closed hloop).after hextends.diagnostics)
      | some pair =>
        obtain ⟨loop, b⟩ := pair
        replace hloop : BindsLoop σ kind element body.node s₁.pushScope loop b s₃ := hloop
        obtain ⟨t, s₄, ht, hpure⟩ := bind_eq_ok.1 hrest
        obtain ⟨rfl, rfl⟩ := pure_eq_ok.1 hpure
        have hq := ((aggregateType_still _ _ _ _).of_run ht).1
        obtain ⟨s₅, hdeclared, helaborates⟩ := hloop.declared
        exact .bound (.aggregate hkind hnodes hmem harray.elaborates helement hdeclared.adds
          helaborates hq hdeclared.cast hloop.filter (aggregateType_eq_ok ht)
          (hbs array List.mem_cons_self) hloop.bound) rfl

theorem bindAggregate_outcome {node : SyntaxNode} {kind : AggregateKind} {children : List Child}
    {n : BoundNode} (hs : s.WellScoped) (hkind : node.kind = .aggregate kind)
    (hnodes : node.children = children.map (·.node)) (h : ChildrenAnswer σ children)
    (hrun : bindAggregate node kind children σ s = (.ok n, s')) : Outcome σ node s n s' := by
  have honly {child : Child} (hmem : child ∈ children) : ChildrenAnswer σ [child] := by
    intro other hother
    rw [List.mem_singleton.1 hother]
    exact h child hmem
  unfold bindAggregate at hrun
  split at hrun
  · exact bindAggregateOver_outcome hs hkind hnodes (by simp) (honly (by simp)) (honly (by simp))
      hrun
  · exact bindAggregateOver_outcome hs hkind hnodes (by simp) (honly (by simp)) (honly (by simp))
      hrun
  · exact .of_error (malformed_reports hrun)

theorem bindLiteral_outcome {node : SyntaxNode} {kind : LiteralKind} {n : BoundNode}
    (hrun : bindLiteral node kind σ s = (.ok n, s')) : Outcome σ node s n s' := by
  unfold bindLiteral at hrun
  cases hliteral : readLiteral kind node.text with
  | some literal =>
    obtain ⟨value, t⟩ := literal
    rw [hliteral] at hrun
    obtain ⟨rfl, rfl⟩ := pure_eq_ok.1 hrun
    exact .bound (.literal hliteral (.refl s)) rfl
  | none =>
    rw [hliteral] at hrun
    exact .of_error (errorNode_reports hrun)

theorem lookupVar_eq_ok {name : String} {var? : Option LocalVar}
    (hrun : lookupVar name σ s = (.ok var?, s')) :
    s.findVar LocalVar.localNs name σ.config.strictVariableLookup = var? ∧ s' = s := by
  obtain ⟨context, s₁, hget, hrest⟩ := bind_eq_ok.1 hrun
  obtain ⟨hcontext, hs₁⟩ := get_eq_ok.1 hget
  subst hcontext hs₁
  obtain ⟨settings, s₂, hread, hpure⟩ := bind_eq_ok.1 hrest
  obtain ⟨hsettings, hs₂⟩ := read_eq_ok.1 hread
  subst hsettings hs₂
  obtain ⟨rfl, rfl⟩ := pure_eq_ok.1 hpure
  exact ⟨rfl, rfl⟩

theorem getField_eq_ok {name : String} {field? : Option Field}
    (hrun : getField name σ s = (.ok field?, s')) : s.program.field? name = field? := by
  cases hrun
  rfl

/-- A name is a variable, or a field of a receiver, or a field of the module, in this order. -/
theorem bindIdentifier_outcome {node : SyntaxNode} {n : BoundNode}
    (hrun : bindIdentifier node σ s = (.ok n, s')) : Outcome σ node s n s' := by
  rw [bindIdentifier, bind_eq_ok] at hrun
  obtain ⟨var?, s₁, hlookup, hrun⟩ := hrun
  obtain ⟨hvar, hs₁⟩ := lookupVar_eq_ok hlookup
  subst hs₁
  cases var? with
  | some var =>
    obtain ⟨rfl, rfl⟩ := pure_eq_ok.1 hrun
    exact .bound (.localVar hvar (.refl s₁)) rfl
  | none =>
    dsimp only at hrun
    rw [bind_eq_ok] at hrun
    obtain ⟨context, s₂, hget, hrun⟩ := hrun
    obtain ⟨hcontext, hs₂⟩ := get_eq_ok.1 hget
    subst hcontext hs₂
    cases hreceiver : s₂.findReceiverField node.text with
    | some found =>
      obtain ⟨var, field⟩ := found
      rw [hreceiver] at hrun
      obtain ⟨rfl, rfl⟩ := pure_eq_ok.1 hrun
      exact .bound (.receiverField hreceiver (.refl s₂)) rfl
    | none =>
      rw [hreceiver] at hrun
      obtain ⟨field?, s₃, hfield, hrest⟩ := bind_eq_ok.1 hrun
      have hq := ((getField_still _).of_run hfield).1
      cases field? with
      | some field =>
        obtain ⟨rfl, rfl⟩ := pure_eq_ok.1 hrest
        exact .bound (.moduleField (getField_eq_ok hfield) hq) rfl
      | none =>
        obtain ⟨hn, hreports⟩ := errorNode_reports hrest
        exact .failed hn (hreports.after hq.diagnostics)

theorem bindFieldAccess_outcome {node : SyntaxNode} {children : List Child} {n : BoundNode}
    (hs : s.WellScoped) (hkind : node.kind.opensScope = false)
    (hnodes : node.children = children.map (·.node)) (h : ChildrenAnswer σ children)
    (hrun : bindFieldAccess node children σ s = (.ok n, s')) : Outcome σ node s n s' := by
  unfold bindFieldAccess at hrun
  split at hrun
  case h_1 child =>
    obtain ⟨target, s₁, htarget, hrest⟩ := bind_eq_ok.1 hrun
    exact accessField_outcome hs hkind (by simp [hnodes]) (h.head hs htarget) hrest
  case h_2 => exact .of_error (malformed_reports hrun)

theorem bindIndex_outcome {node : SyntaxNode} {children : List Child} {n : BoundNode}
    (hs : s.WellScoped) (hkind : node.kind.opensScope = false)
    (hnodes : node.children = children.map (·.node)) (h : ChildrenAnswer σ children)
    (hrun : bindIndex node children σ s = (.ok n, s')) : Outcome σ node s n s' := by
  unfold bindIndex at hrun
  split at hrun
  case h_1 =>
    obtain ⟨array, s₁, harray, hrest⟩ := bind_eq_ok.1 hrun
    obtain ⟨index, s₂, hindex, hrest⟩ := bind_eq_ok.1 hrest
    have harray := h.head hs harray
    have hindex := h.tail.head (harray.wellScoped hs) hindex
    have hall : AllAnswers σ node.children s [array, index] s₂ :=
      hnodes ▸ harray.cons hs hindex.singleton
    exact accessElement_outcome hs hkind hall hrest
  case h_2 => exact .of_error (malformed_reports hrun)

/-! ## Trees -/

theorem bindKind_outcome {node : SyntaxNode} {children : List Child} {n : BoundNode}
    (hs : s.WellScoped) (hnodes : node.children = children.map (·.node))
    (h : ChildrenAnswer σ children) (hrun : bindKind node children σ s = (.ok n, s')) :
    Outcome σ node s n s' := by
  unfold bindKind at hrun
  have hplain {kind : NodeKind} (hkind : node.kind = kind) (hopens : kind.opensScope = false) :
      node.kind.opensScope = false := hkind ▸ hopens
  cases hkind : node.kind <;> rw [hkind] at hrun
  case literal kind => exact bindLiteral_outcome hrun
  case identifier => exact bindIdentifier_outcome hrun
  case fieldAccess => exact bindFieldAccess_outcome hs (hplain hkind rfl) hnodes h hrun
  case index => exact bindIndex_outcome hs (hplain hkind rfl) hnodes h hrun
  case methodCall => exact bindMethodCall_outcome hs (hplain hkind rfl) hnodes h hrun
  case memberCall => exact bindMemberCall_outcome hs hkind hnodes h hrun
  case binary op => exact bindBinary_outcome hs hkind hnodes h hrun
  case unary op => exact bindUnary_outcome hs (hplain hkind rfl) hnodes h hrun
  case cast => exact bindCast_outcome hs hkind hnodes h hrun
  case ternary => exact bindConditional_outcome hs (.inl hkind) hnodes h hrun
  case conditional => exact bindConditional_outcome hs (.inr hkind) hnodes h hrun
  case new => exact bindNew_outcome hs (hplain hkind rfl) hnodes h hrun
  case newArray => exact bindNewArray_outcome hs (hplain hkind rfl) hnodes h hrun
  case arrayInit => exact bindArrayInit_outcome hs (hplain hkind rfl) hnodes h hrun
  case aggregate kind => exact bindAggregate_outcome hs hkind hnodes h hrun
  case block => exact bindBlock_outcome hs hkind hnodes h hrun
  case varDecl => exact bindVarDecl_outcome hs hkind hnodes h hrun
  case typeName => exact .of_error (errorNode_reports hrun)
  case arrayType => exact .of_error (errorNode_reports hrun)
  case loopVar => exact .of_error (errorNode_reports hrun)

/-- Within the limit, a tree is bound one level deeper and answers the same. -/
theorem nested_eq_ok {span : Span} {act : BindM BoundNode} {n : BoundNode}
    (hrun : nested span act σ s = (.ok n, s')) :
    n.isError ∧ s.Reports s' ∨
      ∃ s₁, act σ { s with depth := s.depth + 1 } = (.ok n, s₁) ∧
        s' = { s₁ with depth := s₁.depth - 1 } := by
  obtain ⟨settings, s₁, hread, hrest⟩ := bind_eq_ok.1 hrun
  obtain ⟨hsettings, hs₁⟩ := read_eq_ok.1 hread
  subst hsettings hs₁
  rw [bind_eq_ok] at hrest
  obtain ⟨context, s₂, hget, hrest⟩ := hrest
  obtain ⟨hcontext, hs₂⟩ := get_eq_ok.1 hget
  subst hcontext hs₂
  split at hrest
  · match hact : act settings { s₂ with depth := s₂.depth + 1 } with
    | (r, s₃) =>
      dsimp only at hrest
      rw [hact] at hrest
      cases hrest
      exact .inr ⟨s₃, rfl, rfl⟩
  · exact .inl (errorNode_reports hrest)

theorem childrenOf_nodes (nodes : List SyntaxNode) :
    (childrenOf nodes).map (·.node) = nodes := by
  induction nodes with
  | nil => rw [childrenOf]; rfl
  | cons node rest ih => rw [childrenOf, List.map_cons, ih]

mutual

/-- Every tree that binding answers with is an elaboration, and was reported if it is an error. -/
theorem bind_answers : ∀ (node : SyntaxNode) ⦃s s' : BindState⦄ ⦃n : BoundNode⦄, s.WellScoped →
    bind node σ s = (.ok n, s') → Answers σ node s n s'
  | ⟨kind, text?, children, span⟩, s, s', n, hs, hrun => by
    have hextends := ((bind_restored _).of_run hrun).1 hs
    unfold bind at hrun
    rcases nested_eq_ok hrun with herror | ⟨s₁, hact, rfl⟩
    · exact (Outcome.of_error herror).answers hextends
    · have hs₀ : BindState.WellScoped { s with depth := s.depth + 1 } := ⟨hs.scopes, hs.receivers⟩
      have hinside := (bindKind_restored _ (childrenOf_restore children)).of_run hact
      have houtcome : Outcome σ ⟨kind, text?, children, span⟩ _ n s₁ :=
        bindKind_outcome hs₀ (childrenOf_nodes children).symm (childrenOf_answer children) hact
      have hanswer := houtcome.answers (hinside.1 hs₀)
      exact (hanswer.after (quiet_depth s _)).before (quiet_depth s₁ _)

theorem childrenOf_answer : ∀ nodes : List SyntaxNode, ChildrenAnswer σ (childrenOf nodes)
  | [] => by simp [childrenOf, ChildrenAnswer]
  | node :: rest => by
    intro child hmem
    rw [childrenOf] at hmem
    rcases List.mem_cons.1 hmem with rfl | hmem
    · exact fun s n s' hs hrun => bind_answers node hs hrun
    · exact childrenOf_answer rest child hmem

end

theorem bindExpression_eq_ok {node : SyntaxNode} {owner : RuleModule} {w : Workspace}
    {config : Config} {e : BoundExpression} (h : (bindExpression node owner w config).1 = .ok e) :
    ∃ s', bind node (.standard config) (start owner w) = (.ok e.root, s') ∧
      e.frameSize = s'.nextSlot ∧ e.diagnostics = s'.diagnostics := by
  unfold bindExpression at h
  match hrun : bind node (.standard config) (start owner w) with
  | (.ok root, s') =>
    rw [hrun] at h
    cases h
    exact ⟨s', rfl, rfl, rfl⟩
  | (.error e, s') =>
    rw [hrun] at h
    cases h

/-- An expression that was bound without errors is an elaboration in a fresh context. -/
theorem bindExpression_elaborates {node : SyntaxNode} {owner : RuleModule} {w : Workspace}
    {config : Config} {e : BoundExpression} (h : (bindExpression node owner w config).1 = .ok e)
    (hclean : e.hasErrors = false) :
    ∃ s', Elaborates (.standard config) node (start owner w) e.root s' ∧
      e.frameSize = s'.nextSlot ∧ ¬(start owner w).Reports s' ∧ e.root.isError = false := by
  obtain ⟨s', hrun, hsize, hdiagnostics⟩ := bindExpression_eq_ok h
  have hanswers := bind_answers node (Reachable.start owner w).wellScoped hrun
  have hreports : ¬(start owner w).Reports s' := by
    intro hreports
    rw [BoundExpression.hasErrors, hdiagnostics] at hclean
    exact Bool.eq_false_iff.1 hclean hreports.hasErrors
  exact ⟨s', hanswers.elaborates, hsize, hreports,
    Bool.eq_false_iff.2 fun herror => hreports (hanswers.reports herror)⟩

end RuleExpr

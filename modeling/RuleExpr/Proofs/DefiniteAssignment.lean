import RuleExpr.Proofs.Binding.Answers
import RuleExpr.Proofs.Binding.Declared
import RuleExpr.Proofs.Evaluation.Assignment

/-!
# Definite Assignment

A variable that is evaluated gives the value that its declaration stored earlier in the same
evaluation, if every declaration stands where it is evaluated before what follows it.  The binder
does not ask for this: a variable declared in a branch, in the second operand of a logical operator
or in the receiver of a static call is visible behind it although nothing may have been stored, and
then reads the null that its frame was filled with.
-/

namespace RuleExpr

open BindM BindState Fallible

mutual

/-- No variable is left in scope by a branch, by the second operand of a logical operator or by the
receiver of a call, which may be left out of the evaluation. -/
def SyntaxNode.settled : SyntaxNode → Bool
  | ⟨kind, _, children, _⟩ => allSettled children &&
    match kind with
    | .ternary => !anyExports children.tail
    | .conditional => !anyExports children.tail
    | .binary op => op.methodName?.isSome || !anyExports children.tail
    | .memberCall => !headExports children
    | _ => true

def allSettled : List SyntaxNode → Bool
  | [] => true
  | node :: rest => node.settled && allSettled rest

end

namespace SyntaxNode

variable {node child : SyntaxNode} {rest : List SyntaxNode}

theorem allSettled_iff {nodes : List SyntaxNode} :
    allSettled nodes = true ↔ ∀ node ∈ nodes, node.settled = true := by
  induction nodes with
  | nil => simp [allSettled]
  | cons node rest ih => simp [allSettled, ih]

theorem settled_children (h : node.settled = true) :
    ∀ child ∈ node.children, child.settled = true := by
  obtain ⟨kind, text?, children, span⟩ := node
  unfold settled at h
  exact allSettled_iff.1 (Bool.and_eq_true_iff.1 h).1

theorem settled_branches (h : node.settled = true)
    (hkind : node.kind = .ternary ∨ node.kind = .conditional)
    (hchildren : node.children = child :: rest) : ∀ branch ∈ rest, branch.exports = false := by
  obtain ⟨kind, text?, children, span⟩ := node
  obtain rfl : children = _ := hchildren
  unfold settled at h
  have hkindSettled := (Bool.and_eq_true_iff.1 h).2
  rw [← anyExports_eq_false_iff]
  rcases hkind with hkind | hkind
  all_goals
    obtain rfl : kind = _ := hkind
    simpa using hkindSettled

theorem settled_operand {op : BinaryOp} (h : node.settled = true) (hkind : node.kind = .binary op)
    (hop : op.methodName? = none) (hchildren : node.children = child :: rest) :
    ∀ operand ∈ rest, operand.exports = false := by
  obtain ⟨kind, text?, children, span⟩ := node
  obtain rfl : children = _ := hchildren
  obtain rfl : kind = _ := hkind
  unfold settled at h
  rw [← anyExports_eq_false_iff]
  simpa [hop] using (Bool.and_eq_true_iff.1 h).2

theorem settled_receiver (h : node.settled = true) (hkind : node.kind = .memberCall)
    (hchildren : node.children = child :: rest) : child.exports = false := by
  obtain ⟨kind, text?, children, span⟩ := node
  obtain rfl : children = _ := hchildren
  obtain rfl : kind = _ := hkind
  unfold settled at h
  simpa [headExports] using (Bool.and_eq_true_iff.1 h).2

end SyntaxNode

section Strict

variable {r : Registry} {P : Program} {n : BoundNode} (h : Strict r P n.shape n.ty) (A : List Nat)

include h

theorem Strict.looseReads_eq : n.looseReads A = looseReadsAll A n.children := by
  obtain ⟨shape, t, span⟩ := n
  cases h <;> simp [BoundNode.looseReads, BoundShape.looseReads, BoundNode.children, looseReadsAll]

theorem Strict.assigned_eq : n.assigned A = assignedAll A n.children := by
  obtain ⟨shape, t, span⟩ := n
  cases h <;> simp [BoundNode.assigned, BoundShape.assigned, BoundNode.children, assignedAll]

end Strict

namespace BindState

variable {s s₁ s' : BindState} {A B : List Nat}

/-- The slots of all visible variables are among `A`. -/
def Covered (s : BindState) (A : List Nat) : Prop := ∀ var, s.Sees var → var.slot ∈ A

theorem Covered.quiet (h : s.Covered A) (hq : s.Quiet s') : s'.Covered A :=
  fun var hvar => h var (hq.sees_iff.1 hvar)

theorem Covered.subset (h : s.Covered A) (hsub : A ⊆ B) : s.Covered B :=
  fun var hvar => hsub (h var hvar)

theorem Covered.pushScope (h : s.Covered A) : s.pushScope.Covered A :=
  fun var hvar => h var (sees_pushScope.1 hvar)

theorem Covered.adds {var : LocalVar} (h : s.Covered A) (hadds : s.Adds var s') :
    s'.Covered (var.slot :: A) := by
  intro other hother
  rcases hadds.sees hother with hother | rfl
  · exact List.mem_cons_of_mem _ (h other hother)
  · exact List.mem_cons_self

theorem Covered.closed (h : s.Covered A) (hencloses : s.Encloses s₁ s') : s'.Covered A :=
  fun var hvar => h var (hencloses.sees_iff.1 hvar)

end BindState

/-! ## Elaborated trees -/

variable {σ : BindSettings}

/-- What `Elaborates.covered` says of one tree. -/
def Covers (A : List Nat) (node : SyntaxNode) (s : BindState) (n : BoundNode) (s' : BindState) :
    Prop :=
  s.WellScoped → ¬s.Reports s' → n.isError = false → node.settled = true → s.Covered A →
    n.looseReads A = [] ∧ s'.Covered (n.assigned A)

/-- Elaborated trees of which it is known. -/
abbrev ElaboratesCovered (σ : BindSettings) : Elaborating :=
  fun node s n s' => ∃ _ : Elaborates σ node s n s', ∀ {A}, Covers A node s n s'

section Sequences

variable {nodes : List SyntaxNode} {s s' : BindState} {ns : List BoundNode} {A : List Nat}
  (h : Sequence (ElaboratesCovered σ) nodes s ns s') (hs : s.WellScoped) (hclean : ¬s.Reports s')
  (hns : ∀ n ∈ ns, n.isError = false) (hsettled : ∀ node ∈ nodes, node.settled = true)
  (hA : s.Covered A)

include h hs hclean hns hsettled hA

theorem Sequence.covered : looseReadsAll A ns = [] ∧ s'.Covered (assignedAll A ns) := by
  induction h generalizing A with
  | nil hq =>
    unfold looseReadsAll assignedAll
    exact ⟨rfl, hA.quiet hq⟩
  | cons hnode hnodes ih =>
    obtain ⟨hnode, ihnode⟩ := hnode
    have hs₁ := (hnode.extends hs).wellScoped hs
    obtain ⟨hclean₁, hclean'⟩ := hnode.not_reports_parts hnodes.elaborates hs hclean
    rw [List.forall_mem_cons] at hns hsettled
    obtain ⟨hreads, hA₁⟩ := ihnode hs hclean₁ hns.1 hsettled.1 hA
    obtain ⟨hreads', hA'⟩ := ih hs₁ hclean' hns.2 hsettled.2 hA₁
    unfold looseReadsAll assignedAll
    rw [hreads, hreads']
    exact ⟨rfl, hA'⟩

/-- Trees that export nothing are independent of each other. -/
theorem Sequence.covered_each (hexports : ∀ node ∈ nodes, node.exports = false) :
    (∀ n ∈ ns, n.looseReads A = []) ∧ s'.Covered A := by
  induction h with
  | nil hq => exact ⟨List.forall_mem_nil _, hA.quiet hq⟩
  | cons hnode hnodes ih =>
    obtain ⟨hnode, ihnode⟩ := hnode
    have hs₁ := (hnode.extends hs).wellScoped hs
    obtain ⟨hclean₁, hclean'⟩ := hnode.not_reports_parts hnodes.elaborates hs hclean
    rw [List.forall_mem_cons] at hns hsettled hexports
    have hA₁ : BindState.Covered _ A := fun var hvar =>
      hA var (hnode.sees_of_not_exports hs hclean₁ hns.1 hexports.1 hvar)
    obtain ⟨hreads, hA'⟩ := ih hs₁ hclean' hns.2 hsettled.2 hA₁ hexports.2
    exact ⟨List.forall_mem_cons.2 ⟨(ihnode hs hclean₁ hns.1 hsettled.1 hA).1, hreads⟩, hA'⟩

end Sequences

/-- A tree that is always evaluated, and others of which some are evaluated after it. -/
theorem Sequence.covered_after {first : SyntaxNode} {rest : List SyntaxNode} {s s₁ s' : BindState}
    {n : BoundNode} {ns : List BoundNode} {A : List Nat}
    (h : Sequence (ElaboratesCovered σ) rest s₁ ns s') (hfirst : ElaboratesCovered σ first s n s₁)
    (hs : s.WellScoped) (hclean : ¬s.Reports s') (hns : ∀ m ∈ n :: ns, m.isError = false)
    (hsettled : ∀ node ∈ first :: rest, node.settled = true)
    (hexports : ∀ node ∈ rest, node.exports = false) (hA : s.Covered A) :
    n.looseReads A = [] ∧ (∀ m ∈ ns, m.looseReads (n.assigned A) = []) ∧
      s'.Covered (n.assigned A) := by
  obtain ⟨hnode, hcovered⟩ := hfirst
  obtain ⟨hclean₁, hclean'⟩ := hnode.not_reports_parts h.elaborates hs hclean
  rw [List.forall_mem_cons] at hns hsettled
  obtain ⟨hreads, hA₁⟩ := hcovered hs hclean₁ hns.1 hsettled.1 hA
  have hs₁ := (hnode.extends hs).wellScoped hs
  exact ⟨hreads, h.covered_each hs₁ hclean' hns.2 hsettled.2 hA₁ hexports⟩

/-- A settled tree reads what is visible, and assigns what it leaves visible. -/
theorem Elaborates.covered {node : SyntaxNode} {s s' : BindState} {n : BoundNode}
    (h : Elaborates σ node s n s') {A : List Nat} : Covers A node s n s' := by
  induction h using Elaborates.induct generalizing A with
  | step h hrule =>
    intro hs hclean hn hsettled hA
    have hkids := SyntaxNode.settled_children hsettled
    cases hrule with
    | failure herror _ => exact absurd herror (Bool.eq_false_iff.1 hn)
    | literal _ hq =>
      simp only [BoundNode.looseReads, BoundShape.looseReads, BoundNode.assigned,
        BoundShape.assigned, true_and]
      exact hA.quiet hq
    | localVar hvar hq =>
      have hslot := hA _ (sees_of_findVar hvar)
      simp only [BoundNode.looseReads, BoundShape.looseReads, BoundNode.assigned,
        BoundShape.assigned, if_pos hslot, true_and]
      exact hA.quiet hq
    | receiverField hfield hq =>
      have hslot := hA _ (sees_of_findReceiverField hfield)
      simp only [BoundNode.looseReads, BoundShape.looseReads, BoundNode.assigned,
        BoundShape.assigned, if_pos hslot, true_and]
      exact hA.quiet hq
    | moduleField _ hq =>
      simp only [BoundNode.looseReads, BoundShape.looseReads, BoundNode.assigned,
        BoundShape.assigned, true_and]
      exact hA.quiet hq
    | strict _ hsub hall hstrict herror =>
      rw [hstrict.looseReads_eq, hstrict.assigned_eq]
      exact hall.covered hs hclean (no_errors_of_not_reports hclean herror)
        (fun child hmem => hkids child (hsub.subset hmem)) hA
    | memberCall _ hchildren hall _ _ herror =>
      have hseq := hall.covered hs hclean (no_errors_of_not_reports hclean herror)
        (hchildren ▸ hkids) hA
      simp only [looseReadsAll, assignedAll] at hseq
      simpa only [BoundNode.looseReads, BoundShape.looseReads, BoundNode.assigned,
        BoundShape.assigned] using hseq
    | staticCall hkind hchildren hall hstrict hreceiverError herror =>
      rw [hstrict.looseReads_eq, hstrict.assigned_eq]
      cases hall with
      | cons hreceiver harguments =>
        obtain ⟨hreceiver, -⟩ := hreceiver
        have hs₁ := (hreceiver.extends hs).wellScoped hs
        obtain ⟨hclean₁, hclean'⟩ := hreceiver.not_reports_parts harguments.elaborates hs hclean
        have hreceiverExports := SyntaxNode.settled_receiver hsettled hkind hchildren
        -- The receiver is not evaluated, but it leaves nothing in scope.
        have hA₁ : BindState.Covered _ A := fun var hvar => hA var
          (hreceiver.sees_of_not_exports hs hclean₁ hreceiverError hreceiverExports hvar)
        rw [hchildren, List.forall_mem_cons] at hkids
        exact harguments.covered hs₁ hclean' (no_errors_of_not_reports hclean herror) hkids.2 hA₁
    | conditional hkind hchildren hall _ _ herror =>
      have hbound := no_errors_of_not_reports hclean herror
      cases hall with
      | cons hcondition hbranches =>
        have hbranchExports := SyntaxNode.settled_branches hsettled hkind hchildren
        obtain ⟨hreads, hreads', hA'⟩ := hbranches.covered_after hcondition hs hclean hbound
          (hchildren ▸ hkids) hbranchExports hA
        rw [BoundNode.assigned_eq, BoundShape.assigned, BoundNode.looseReads_eq,
          BoundShape.looseReads_conditional, hreads, List.nil_append, List.flatMap_eq_nil_iff]
        exact ⟨hreads', hA'⟩
    | logical hkind hop hchildren hall _ _ herror =>
      have hbound := no_errors_of_not_reports hclean herror
      cases hall with
      | cons hleft hright =>
        have hrightExports := SyntaxNode.settled_operand hsettled hkind hop hchildren
        obtain ⟨hreads, hreads', hA'⟩ := hright.covered_after hleft hs hclean hbound
          (hchildren ▸ hkids) hrightExports hA
        rw [List.forall_mem_singleton] at hreads'
        rw [BoundNode.assigned_eq, BoundNode.looseReads_eq]
        split
        · rw [BoundShape.assigned, BoundShape.looseReads, hreads, hreads']
          exact ⟨rfl, hA'⟩
        · rw [BoundShape.assigned, BoundShape.looseReads, hreads, hreads']
          exact ⟨rfl, hA'⟩
    | cast hoperand _ _ herror =>
      obtain ⟨-, ih⟩ := hoperand
      have hoperand := ih hs hclean herror hsettled hA
      simpa only [BoundNode.looseReads, BoundShape.looseReads, BoundNode.assigned,
        BoundShape.assigned] using hoperand
    | operand span hkind hmem hchild =>
      obtain ⟨-, ih⟩ := hchild
      have hoperand := ih hs hclean hn (hkids _ hmem) hA
      rw [BoundNode.assigned_eq, BoundNode.looseReads_eq] at hoperand ⊢
      exact hoperand
    | block _ hall hq herror =>
      have hencloses := hall.elaborates.encloses hs hq
      have hreads := (hall.covered (pushScope_wellScoped hs) (hencloses.not_reports hclean)
        (no_errors_of_not_reports hclean herror) hkids hA.pushScope).1
      rw [BoundNode.assigned_eq, BoundNode.looseReads_eq, BoundShape.assigned,
        BoundShape.looseReads]
      exact ⟨hreads, (hA.closed hencloses).subset (subset_assignedAll _ A)⟩
    | varDecl _ hmem hinitial _ hadds hreceivers herror =>
      obtain ⟨hinitial, ih⟩ := hinitial
      obtain ⟨hreads, hA₁⟩ := ih hs (fun hreports => hclean (hreports.before hadds.diagnostics))
        herror (hkids _ hmem) hA
      rw [BoundNode.assigned_eq, BoundNode.looseReads_eq, BoundShape.assigned,
        BoundShape.looseReads]
      exact ⟨hreads, hA₁.adds hadds⟩
    | aggregate _ hchildren hmem hsource _ hadds hbody hq _ _ _ hsourceError hbodyError =>
      obtain ⟨hsource, ihsource⟩ := hsource
      obtain ⟨hbody, ihbody⟩ := hbody
      have hloops := hsource.loops hadds hbody hq hs
      obtain ⟨hcleanSource, hcleanBody⟩ := hloops.not_reports hclean
      rw [hchildren, List.forall_mem_cons] at hkids
      obtain ⟨hreads, hA₁⟩ := ihsource hs hcleanSource hsourceError hkids.1 hA
      obtain ⟨hreads', -⟩ := ihbody hloops.wellScoped hcleanBody hbodyError (hkids.2 _ hmem)
        (hA₁.pushScope.adds hadds)
      rw [BoundNode.assigned_eq, BoundNode.looseReads_eq, BoundShape.assigned,
        BoundShape.looseReads, hreads, hreads']
      exact ⟨rfl, hA₁.closed hloops.encloses⟩

/-- Whatever was assigned before, a tree reads slots below `bound` only. -/
def ReadsBelow (bound : Nat) (n : BoundNode) : Prop := ∀ A, ∀ slot ∈ n.looseReads A, slot < bound

namespace ReadsBelow

variable {bound bound' : Nat} {n : BoundNode}

theorem mono (h : ReadsBelow bound n) (hle : bound ≤ bound') : ReadsBelow bound' n :=
  fun A slot hmem => Nat.lt_of_lt_of_le (h A slot hmem) hle

theorem of_children (hshape : ∀ name slot, n.shape ≠ .localVar name slot)
    (h : ∀ c ∈ n.children, ReadsBelow bound c) : ReadsBelow bound n := by
  intro A slot hmem
  rcases BoundNode.mem_looseReads hmem with ⟨name, hlocal⟩ | ⟨c, hc, B, hB⟩
  · exact absurd hlocal (hshape name slot)
  · exact h c hc B slot hB

theorem localVar {name : String} {slot : Nat} {t : Ty} {span : Span} (h : slot < bound) :
    ReadsBelow bound ⟨.localVar name slot, t, span⟩ := by
  intro A other hmem
  rcases BoundNode.mem_looseReads hmem with ⟨_, hlocal⟩ | ⟨c, hc, -⟩
  · cases hlocal
    exact h
  · cases hc

end ReadsBelow

theorem Sequence.readsBelow {E : Elaborating}
    (hE : ∀ {node s n s'}, E node s n s' → s.WellScoped → s.SlotsBelow →
      s.Extends s' ∧ ReadsBelow s'.nextSlot n)
    {nodes : List SyntaxNode} {s s' : BindState} {ns : List BoundNode}
    (h : Sequence E nodes s ns s') (hs : s.WellScoped) (hslots : s.SlotsBelow) :
    s.nextSlot ≤ s'.nextSlot ∧ ∀ n ∈ ns, ReadsBelow s'.nextSlot n := by
  induction h with
  | nil hq => exact ⟨Nat.le_of_eq hq.nextSlot.symm, List.forall_mem_nil _⟩
  | cons hnode _ ih =>
    obtain ⟨hextends, hfirst⟩ := hE hnode hs hslots
    obtain ⟨hle, hrest⟩ := ih (hextends.wellScoped hs) (hextends.slotsBelow hslots)
    exact ⟨Nat.le_trans hextends.nextSlot hle, List.forall_mem_cons.2 ⟨hfirst.mono hle, hrest⟩⟩

/-- The slots that a tree reads have been given out. -/
theorem Elaborates.readsBelow {node : SyntaxNode} {s s' : BindState} {n : BoundNode}
    (h : Elaborates σ node s n s') (hs : s.WellScoped) (hslots : s.SlotsBelow) :
    ReadsBelow s'.nextSlot n := by
  induction h using Elaborates.induct with
  | step h hrule =>
    cases hrule with
    | failure herror _ =>
      refine .of_children ?_ ?_
      · intro name slot hshape
        simp [BoundNode.isError, hshape] at herror
      · rw [BoundNode.children_of_isError herror]
        exact List.forall_mem_nil _
    | literal => exact .of_children (by simp) (List.forall_mem_nil _)
    | localVar hvar hq => exact .localVar (hq.nextSlot ▸ hslots _ (sees_of_findVar hvar))
    | receiverField hfield hq =>
      have hlt := hslots _ (sees_of_findReceiverField hfield)
      exact .of_children (by simp)
        (List.forall_mem_singleton.2 (.localVar (hq.nextSlot ▸ hlt)))
    | moduleField => exact .of_children (by simp) (List.forall_mem_nil _)
    | strict _ _ hall hstrict =>
      exact .of_children hstrict.not_localVar
        (hall.readsBelow (fun h hs hslots => ⟨h.1.extends hs, h.2 hs hslots⟩) hs hslots).2
    | memberCall _ _ hall =>
      exact .of_children (by simp)
        (hall.readsBelow (fun h hs hslots => ⟨h.1.extends hs, h.2 hs hslots⟩) hs hslots).2
    | staticCall _ _ hall hstrict =>
      have hchildren :=
        (hall.readsBelow (fun h hs hslots => ⟨h.1.extends hs, h.2 hs hslots⟩) hs hslots).2
      exact .of_children hstrict.not_localVar (List.forall_mem_cons.1 hchildren).2
    | conditional _ _ hall =>
      exact .of_children (by simp)
        (hall.readsBelow (fun h hs hslots => ⟨h.1.extends hs, h.2 hs hslots⟩) hs hslots).2
    | logical _ _ _ hall =>
      have hchildren :=
        (hall.readsBelow (fun h hs hslots => ⟨h.1.extends hs, h.2 hs hslots⟩) hs hslots).2
      split
      · exact .of_children (by simp) hchildren
      · exact .of_children (by simp) hchildren
    | cast hoperand =>
      obtain ⟨-, ih⟩ := hoperand
      exact .of_children (by simp) (List.forall_mem_singleton.2 (ih hs hslots))
    | operand _ _ _ hchild =>
      obtain ⟨-, ih⟩ := hchild
      intro A slot hmem
      rw [BoundNode.looseReads_eq] at hmem
      exact ih hs hslots A slot (BoundNode.looseReads_eq _ A ▸ hmem)
    | block _ hall hq =>
      have hchildren :=
        (hall.readsBelow (fun h hs hslots => ⟨h.1.extends hs, h.2 hs hslots⟩)
          (pushScope_wellScoped hs) (slotsBelow_pushScope hslots)).2
      rw [hq.nextSlot, closeScope_nextSlot]
      exact .of_children (by simp) hchildren
    | varDecl _ _ hinitial _ hadds =>
      obtain ⟨-, ih⟩ := hinitial
      refine .of_children (by simp) (List.forall_mem_singleton.2 ?_)
      exact (ih hs hslots).mono (hadds.nextSlot ▸ Nat.le_succ _)
    | aggregate _ _ _ hsource _ hadds hbody hq =>
      obtain ⟨hsource, ihsource⟩ := hsource
      obtain ⟨hbody, ihbody⟩ := hbody
      have hloops := hsource.loops hadds hbody hq hs
      have hbodyReads := ihbody hloops.wellScoped (hloops.slotsBelow hslots)
      rw [← hloops.encloses.nextSlot] at hbodyReads
      refine .of_children (by simp) ?_
      exact List.forall_mem_cons.2 ⟨(ihsource hs hslots).mono hloops.encloses.extends.nextSlot,
        List.forall_mem_singleton.2 hbodyReads⟩

/-- In an expression that was bound without errors every declaration has a slot of its own, and a
load answers with the value stored last to its slot in the same evaluation.  Only a read that the
tree does not settle can find the slot as the frame was made, and trees whose declarations all
stand where they are evaluated have no such read. -/
theorem bindExpression_loads {node : SyntaxNode} {owner : RuleModule} {w : Workspace}
    {config : Config} {e : BoundExpression} (hrun : (bindExpression node owner w config).1 = .ok e)
    (hclean : e.hasErrors = false) :
    let run := e.root.eval (Recorded.single e.frameSize)
    run.1 = e.evaluate ∧ e.root.declaredSlots.Nodup ∧
    (∀ before slot answer after, run.2.log = before ++ .load slot answer :: after →
      (∃ value, lastStored slot before = some value ∧ answer = .ok value) ∨
      lastStored slot before = none ∧ answer = .ok .null ∧ slot ∈ e.root.looseReads []) ∧
    (node.settled = true → e.root.looseReads [] = []) := by
  intro run
  obtain ⟨s', helaborates, hsize, hreports, hn⟩ := bindExpression_elaborates hrun hclean
  have hs := start_wellScoped owner w
  refine ⟨BoundNode.eval_recorded _ _, (helaborates.declaredSlots hs).nodup, ?_, ?_⟩
  · have hbelow := helaborates.readsBelow hs (start_slotsBelow owner w) []
    rw [← hsize] at hbelow
    have htraced := BoundNode.eval_traced hbelow e.root [] (List.Subset.refl _)
    exact htraced.state (fun _ _ hst => hst.loads) (fun _ _ hst => hst.loads)
      (Traced.start e.frameSize _)
  · intro hsettled
    have hA : (start owner w).Covered [] := fun var hvar =>
      absurd (start_slotsBelow owner w var hvar) (Nat.not_lt_zero _)
    exact (helaborates.covered hs hreports hn hsettled hA).1

/-- A variable that is declared first and read in the body of a loop. -/
theorem bindExpression_loads_loop :
    let owner := RuleModule.empty "Rules" "rules" 0
    let node : SyntaxNode := ⟨.block, none,
      [⟨.varDecl, some "x", [.leaf .typeName "int" .nowhere,
          .leaf (.literal .integer) "1" .nowhere], .nowhere⟩,
        ⟨.aggregate .collect, none,
          [⟨.arrayInit, none, [.leaf .identifier "x" .nowhere], .nowhere⟩,
            .leaf .identifier "x" .nowhere], .nowhere⟩], .nowhere⟩
    ∃ e, (bindExpression node owner .empty .standard).1 = .ok e ∧ e.hasErrors = false ∧
      node.settled = true ∧ (e.root.eval (Recorded.single e.frameSize)).2.log.length = 4 ∧
      ∀ before slot answer after,
        (e.root.eval (Recorded.single e.frameSize)).2.log = before ++ .load slot answer :: after →
        ∃ value, lastStored slot before = some value ∧ answer = .ok value := by
  intro owner node
  have hcheck : (bindExpression node owner .empty .standard).1.toOption.any (fun e =>
      e.hasErrors = false ∧
        (e.root.eval (Recorded.single e.frameSize)).2.log.length = 4) = true := by
    decide +kernel
  match hrun : (bindExpression node owner .empty .standard).1 with
  | .ok e =>
    rw [hrun] at hcheck
    obtain ⟨hclean, hlength⟩ : e.hasErrors = false ∧ _ := of_decide_eq_true hcheck
    have hsettled : node.settled = true := by decide +kernel
    refine ⟨e, rfl, hclean, hsettled, hlength, ?_⟩
    intro before slot answer after hlog
    obtain ⟨-, -, hloads, hnone⟩ := bindExpression_loads hrun hclean
    rcases hloads before slot answer after hlog with hstored | ⟨-, -, hloose⟩
    · exact hstored
    · rw [hnone hsettled] at hloose
      cases hloose
  | .error error =>
    rw [hrun] at hcheck
    cases hcheck

/-- Whether all that happened is that the first slot answered with null. -/
def loadsNull : List Access → Bool
  | [.load 0 (.ok .null)] => true
  | _ => false

theorem eq_of_loadsNull {log : List Access} (h : loadsNull log = true) :
    log = [.load 0 (.ok .null)] := by
  unfold loadsNull at h
  split at h
  · rfl
  · cases h

/-- A variable declared in a branch that is not taken is bound without errors and loaded although
nothing was stored to its slot. -/
theorem bindExpression_reads_unassigned :
    let owner := RuleModule.empty "Rules" "rules" 0
    let node : SyntaxNode := ⟨.block, none,
      [⟨.conditional, none, [.leaf (.literal .boolean) "false" .nowhere,
          ⟨.varDecl, some "x", [.leaf .typeName "int" .nowhere,
            .leaf (.literal .integer) "1" .nowhere], .nowhere⟩], .nowhere⟩,
        .leaf .identifier "x" .nowhere], .nowhere⟩
    ∃ e, (bindExpression node owner .empty .standard).1 = .ok e ∧ e.hasErrors = false ∧
      (e.root.eval (Recorded.single e.frameSize)).2.log = [.load 0 (.ok .null)] := by
  intro owner node
  have hcheck : (bindExpression node owner .empty .standard).1.toOption.any (fun e =>
      !e.hasErrors && loadsNull (e.root.eval (Recorded.single e.frameSize)).2.log) = true := by
    decide +kernel
  cases hrun : (bindExpression node owner .empty .standard).1 with
  | ok e =>
    rw [hrun] at hcheck
    obtain ⟨hclean, hlog⟩ := Bool.and_eq_true_iff.1 hcheck
    exact ⟨e, rfl, by simpa using hclean, eq_of_loadsNull hlog⟩
  | error error =>
    rw [hrun] at hcheck
    cases hcheck

end RuleExpr

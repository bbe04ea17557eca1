import RuleExpr.Proofs.Binding.Elaboration
import RuleExpr.Proofs.Evaluation.Nodes

/-!
# Variables of a Bound Tree

Where the variables come from that the nodes of a bound tree read.  A slot that was given out before
a tree is bound can only be read in it through a variable that is visible then, because every
variable declared inside gets a new slot.
-/

namespace RuleExpr

open BindM BindState

namespace BindState

variable {s s₁ s' : BindState} {var : LocalVar}

/-- A variable can be named, or its fields can be named without it. -/
def Sees (s : BindState) (var : LocalVar) : Prop :=
  (∃ scope ∈ s.scopes, var ∈ scope) ∨ ∃ depth, (depth, var) ∈ s.receivers

/-- All visible variables have slots that were given out. -/
def SlotsBelow (s : BindState) : Prop := ∀ var, s.Sees var → var.slot < s.nextSlot

theorem sees_of_findVar {ns name : String} {strict : Bool}
    (h : s.findVar ns name strict = some var) : s.Sees var := by
  obtain ⟨scope, hscope, hfind⟩ := List.exists_of_findSome?_eq_some h
  have hmem := List.mem_of_find?_eq_some hfind
  exact .inl ⟨scope, hscope, List.mem_reverse.1 hmem⟩

theorem sees_of_findReceiverField {name : String} {field : Field}
    (h : s.findReceiverField name = some (var, field)) : s.Sees var := by
  obtain ⟨⟨depth, receiver⟩, hmem, hfield⟩ := List.exists_of_findSome?_eq_some h
  obtain ⟨found, -, hpair⟩ := Option.map_eq_some_iff.1 hfield
  cases hpair
  exact .inr ⟨depth, List.mem_reverse.1 hmem⟩

theorem field?_of_findReceiverField {name : String} {field : Field}
    (h : s.findReceiverField name = some (var, field)) :
    s.program.declarations.field? var.ty name = some field := by
  obtain ⟨⟨depth, receiver⟩, -, hfield⟩ := List.exists_of_findSome?_eq_some h
  obtain ⟨found, hfound, hpair⟩ := Option.map_eq_some_iff.1 hfield
  cases hpair
  exact hfound

theorem Quiet.sees_iff (h : s.Quiet s') : s'.Sees var ↔ s.Sees var := by
  rw [Sees, Sees, h.scopes, h.receivers]

/-- The variables that a step adds have new slots. -/
theorem Extends.sees (h : s.Extends s') (hvar : s'.Sees var) :
    s.Sees var ∨ s.nextSlot ≤ var.slot ∧ var.slot < s'.nextSlot := by
  obtain ⟨inner, outer, new, hscopes, hscopes', hnew⟩ := h.scopes
  rcases hvar with ⟨scope, hscope, hmem⟩ | ⟨depth, hreceiver⟩
  · rw [hscopes'] at hscope
    rcases List.mem_cons.1 hscope with rfl | hscope
    · rcases List.mem_append.1 hmem with hmem | hmem
      · exact .inl (.inl ⟨inner, by simp [hscopes], hmem⟩)
      · exact .inr (hnew var hmem)
    · exact .inl (.inl ⟨scope, by simp [hscopes, hscope], hmem⟩)
  · exact .inl (.inr ⟨depth, h.receivers ▸ hreceiver⟩)

theorem Fills.sees_mono (h : s.Fills s') (hvar : s.Sees var) : s'.Sees var := by
  obtain ⟨inner, outer, new, hscopes, hscopes', -⟩ := h.scopes
  obtain ⟨added, hreceivers, -⟩ := h.receivers
  rcases hvar with ⟨scope, hscope, hmem⟩ | ⟨depth, hreceiver⟩
  · rw [hscopes] at hscope
    rcases List.mem_cons.1 hscope with rfl | hscope
    · exact .inl ⟨scope ++ new, by simp [hscopes'], List.mem_append_left _ hmem⟩
    · exact .inl ⟨scope, by simp [hscopes', hscope], hmem⟩
  · exact .inr ⟨depth, hreceivers ▸ List.mem_append_left _ hreceiver⟩

theorem Extends.sees_of_lt (h : s.Extends s') (hvar : s'.Sees var) (hlt : var.slot < s.nextSlot) :
    s.Sees var := by
  rcases h.sees hvar with hvar | ⟨hle, -⟩
  · exact hvar
  · omega

theorem Extends.slotsBelow (h : s.Extends s') (hs : s.SlotsBelow) : s'.SlotsBelow := by
  intro var hvar
  rcases h.sees hvar with hvar | ⟨-, hlt⟩
  · exact Nat.lt_of_lt_of_le (hs var hvar) h.nextSlot
  · exact hlt

theorem sees_pushScope : s.pushScope.Sees var ↔ s.Sees var := by
  simp [Sees, pushScope]

theorem slotsBelow_pushScope (hs : s.SlotsBelow) : s.pushScope.SlotsBelow :=
  fun var hvar => hs var (sees_pushScope.1 hvar)

/-- Declaring a variable makes only that one visible. -/
theorem Adds.sees {other : LocalVar} (h : s.Adds var s') (hother : s'.Sees other) :
    s.Sees other ∨ other = var := by
  rcases hother with ⟨scope, hscope, hmem⟩ | ⟨depth, hreceiver⟩
  · rw [h.scopes] at hscope
    match hscopes : s.scopes with
    | [] =>
      rw [hscopes] at hscope
      cases hscope
    | inner :: outer =>
      rw [hscopes] at hscope
      rcases List.mem_cons.1 hscope with rfl | hscope
      · rcases List.mem_append.1 hmem with hmem | hmem
        · exact .inl (.inl ⟨inner, by simp [hscopes], hmem⟩)
        · exact .inr (List.mem_singleton.1 hmem)
      · exact .inl (.inl ⟨scope, by simp [hscopes, hscope], hmem⟩)
  · rcases h.receivers with hreceivers | hreceivers
    · exact .inl (.inr ⟨depth, hreceivers ▸ hreceiver⟩)
    · rw [hreceivers] at hreceiver
      rcases List.mem_append.1 hreceiver with hreceiver | hreceiver
      · exact .inl (.inr ⟨depth, hreceiver⟩)
      · cases List.mem_singleton.1 hreceiver
        exact .inr rfl

theorem Adds.slotsBelow (h : s.Adds var s') (hs : s.SlotsBelow) : s'.SlotsBelow := by
  intro other hother
  rw [h.nextSlot]
  rcases h.sees hother with hother | rfl
  · exact Nat.lt_succ_of_lt (hs other hother)
  · rw [h.slot]
    exact Nat.lt_succ_self _

/-- A closed scope takes its variables with it. -/
theorem Encloses.sees_iff (h : s.Encloses s₁ s') : s'.Sees var ↔ s.Sees var := by
  rw [h.closes.sees_iff, closeScope_of_fills h.wellScoped h.fills]
  rfl

section Loops

variable {s₂ s₃ : BindState} (h : s.Loops s₁ var s₂ s₃ s')

include h

theorem Loops.slotsBelow_open (hs : s.SlotsBelow) : s₁.pushScope.SlotsBelow :=
  slotsBelow_pushScope (h.source.slotsBelow hs)

theorem Loops.slotsBelow (hs : s.SlotsBelow) : s₂.SlotsBelow :=
  h.adds.slotsBelow (h.slotsBelow_open hs)

end Loops

/-- In a new context nothing is visible. -/
theorem start_slotsBelow (owner : RuleModule) (w : Workspace) : (start owner w).SlotsBelow := by
  rintro var (⟨scope, hscope, hmem⟩ | ⟨depth, hreceiver⟩)
  · rw [List.mem_singleton.1 hscope] at hmem
    cases hmem
  · cases hreceiver

theorem start_wellScoped (owner : RuleModule) (w : Workspace) : (start owner w).WellScoped :=
  (Reachable.start owner w).wellScoped

end BindState

/-- A node that reads a slot below `bound` reads a visible variable of its type. -/
def ReadsVisible (s : BindState) (bound : Nat) (shape : BoundShape) (t : Ty) : Prop :=
  ∀ name slot, shape = .localVar name slot → slot < bound → ∃ var, s.Sees var ∧ var.slot = slot ∧
    var.ty = t

/-- A tree bound after `s` reads from the slots of `s` what is visible in `s`. -/
theorem readsVisible_of_extends {s s₁ : BindState} {n : BoundNode} (h : s.Extends s₁)
    (hn : n.AllNodes (ReadsVisible s₁ s₁.nextSlot)) : n.AllNodes (ReadsVisible s s.nextSlot) := by
  intro m hm name slot hshape hlt
  obtain ⟨var, hvar, hslot, ht⟩ := hn m hm name slot hshape (Nat.lt_of_lt_of_le hlt h.nextSlot)
  exact ⟨var, h.sees_of_lt hvar (hslot ▸ hlt), hslot, ht⟩

theorem readsVisible_of_not_localVar {s : BindState} {bound : Nat} {shape : BoundShape} {t : Ty}
    (h : ∀ name slot, shape ≠ .localVar name slot) : ReadsVisible s bound shape t :=
  fun name slot hshape => absurd hshape (h name slot)

variable {σ : BindSettings}

theorem Strict.not_localVar {r : Registry} {P : Program} {shape : BoundShape} {t : Ty}
    (h : Strict r P shape t) (name : String) (slot : Nat) : shape ≠ .localVar name slot := by
  cases h <;> exact BoundShape.noConfusion

theorem BoundNode.children_of_isError {n : BoundNode} (h : n.isError) : n.children = [] := by
  obtain ⟨shape, t, span⟩ := n
  cases shape <;> first | rfl | cases h

theorem Sequence.readsVisible {E : Elaborating}
    (hE : ∀ {node s n s'}, E node s n s' → s.WellScoped →
      s.Extends s' ∧ n.AllNodes (ReadsVisible s s.nextSlot))
    {nodes : List SyntaxNode} {s s' : BindState} {ns : List BoundNode}
    (h : Sequence E nodes s ns s') (hs : s.WellScoped) :
    ∀ n ∈ ns, n.AllNodes (ReadsVisible s s.nextSlot) := by
  induction h with
  | nil => exact List.forall_mem_nil _
  | cons hnode _ ih =>
    obtain ⟨hextends, hfirst⟩ := hE hnode hs
    have hrest := ih (hextends.wellScoped hs)
    exact List.forall_mem_cons.2
      ⟨hfirst, fun n hn => readsVisible_of_extends hextends (hrest n hn)⟩

theorem Elaborates.readsVisible {node : SyntaxNode} {s s' : BindState} {n : BoundNode}
    (h : Elaborates σ node s n s') (hs : s.WellScoped) :
    n.AllNodes (ReadsVisible s s.nextSlot) := by
  induction h using Elaborates.induct with
  | step h hrule =>
    cases hrule with
    | failure hn _ =>
      refine .intro (readsVisible_of_not_localVar ?_) ?_
      · intro name slot hshape
        simp [BoundNode.isError, hshape] at hn
      · rw [BoundNode.children_of_isError hn]
        exact List.forall_mem_nil _
    | literal =>
      exact .intro (readsVisible_of_not_localVar fun _ _ h => nomatch h) (List.forall_mem_nil _)
    | localVar hvar _ =>
      refine .intro ?_ (List.forall_mem_nil _)
      rintro name slot ⟨⟩ -
      exact ⟨_, sees_of_findVar hvar, rfl, rfl⟩
    | receiverField hfield _ =>
      refine .intro (readsVisible_of_not_localVar fun _ _ h => nomatch h) ?_
      refine List.forall_mem_singleton.2 (.intro ?_ (List.forall_mem_nil _))
      rintro name slot ⟨⟩ -
      exact ⟨_, sees_of_findReceiverField hfield, rfl, rfl⟩
    | moduleField =>
      exact .intro (readsVisible_of_not_localVar fun _ _ h => nomatch h) (List.forall_mem_nil _)
    | strict _ _ hall hstrict _ =>
      exact .intro (readsVisible_of_not_localVar hstrict.not_localVar)
        (hall.readsVisible (fun ⟨h, ih⟩ hs => ⟨h.extends hs, ih hs⟩) hs)
    | memberCall _ _ hall =>
      exact .intro (readsVisible_of_not_localVar fun _ _ h => nomatch h)
        (hall.readsVisible (fun ⟨h, ih⟩ hs => ⟨h.extends hs, ih hs⟩) hs)
    | staticCall _ _ hall hstrict =>
      have hchildren := hall.readsVisible (fun ⟨h, ih⟩ hs => ⟨h.extends hs, ih hs⟩) hs
      exact .intro (readsVisible_of_not_localVar hstrict.not_localVar)
        (List.forall_mem_cons.1 hchildren).2
    | conditional _ _ hall =>
      exact .intro (readsVisible_of_not_localVar fun _ _ h => nomatch h)
        (hall.readsVisible (fun ⟨h, ih⟩ hs => ⟨h.extends hs, ih hs⟩) hs)
    | logical _ _ _ hall =>
      have hchildren := hall.readsVisible (fun ⟨h, ih⟩ hs => ⟨h.extends hs, ih hs⟩) hs
      split
      · exact .intro (readsVisible_of_not_localVar fun _ _ h => nomatch h) hchildren
      · exact .intro (readsVisible_of_not_localVar fun _ _ h => nomatch h) hchildren
    | cast hoperand =>
      obtain ⟨-, ih⟩ := hoperand
      exact .intro (readsVisible_of_not_localVar fun _ _ h => nomatch h)
        (List.forall_mem_singleton.2 (ih hs))
    | operand span _ _ hchild =>
      obtain ⟨-, ih⟩ := hchild
      exact (ih hs).respan span
    | block _ hall =>
      refine .intro (readsVisible_of_not_localVar fun _ _ h => nomatch h) ?_
      have hinside := hall.readsVisible (fun ⟨h, ih⟩ hs => ⟨h.extends hs, ih hs⟩)
        (pushScope_wellScoped hs)
      intro c hc m hm name slot hshape hlt
      obtain ⟨var, hvar, hslot, ht⟩ := hinside c hc m hm name slot hshape hlt
      exact ⟨var, sees_pushScope.1 hvar, hslot, ht⟩
    | varDecl _ _ hinitial =>
      obtain ⟨-, ih⟩ := hinitial
      exact .intro (readsVisible_of_not_localVar fun _ _ h => nomatch h)
        (List.forall_mem_singleton.2 (ih hs))
    | aggregate _ _ _ hsource _ hadds hbody hq =>
      obtain ⟨hsource, ihsource⟩ := hsource
      obtain ⟨hbody, ihbody⟩ := hbody
      have hloops := hsource.loops hadds hbody hq hs
      refine .intro (readsVisible_of_not_localVar fun _ _ h => nomatch h) ?_
      refine List.forall_mem_cons.2 ⟨ihsource hs, List.forall_mem_singleton.2 ?_⟩
      refine readsVisible_of_extends hloops.source ?_
      intro m hm name slot hshape hlt
      have hlt₂ := Nat.lt_of_lt_of_le hlt hloops.fills.nextSlot
      obtain ⟨var, hvar, hslot, ht⟩ := ihbody hloops.wellScoped m hm name slot hshape hlt₂
      -- The loop variable itself has the first slot that is not below the bound.
      rcases hadds.sees hvar with hvar | rfl
      · exact ⟨var, sees_pushScope.1 hvar, hslot, ht⟩
      · exact absurd (hslot ▸ hlt) (hadds.slot ▸ Nat.lt_irrefl _)

end RuleExpr

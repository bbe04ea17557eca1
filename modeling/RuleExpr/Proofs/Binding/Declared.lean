import RuleExpr.Proofs.Binding.Scoping

/-!
# Declared Variables

Which slots the declarations and loops of a bound tree have, and which variables a tree leaves in
the scope around it.  All declarations of a tree have different slots, so a slot stands for one
variable.  A variable declared inside a block or the body of a loop is closed with it; any other
declaration stays visible after the tree, also where it is not evaluated.
-/

namespace RuleExpr

open BindM BindState

/-- Different slots in a range. -/
structure SlotsBetween (low high : Nat) (slots : List Nat) : Prop where
  nodup : slots.Nodup
  range : ∀ slot ∈ slots, low ≤ slot ∧ slot < high

namespace SlotsBetween

variable {low mid high slot : Nat} {xs ys : List Nat}

theorem nil : SlotsBetween low high [] := ⟨List.nodup_nil, List.forall_mem_nil _⟩

/-- Slots of two parts are distinct if one slot separates them. -/
theorem append (h : SlotsBetween low mid xs) (h' : SlotsBetween mid high ys) (hle : low ≤ mid)
    (hle' : mid ≤ high) : SlotsBetween low high (xs ++ ys) where
  nodup := by
    refine List.nodup_append.2 ⟨h.nodup, h'.nodup, ?_⟩
    intro x hx y hy
    have hlt := (h.range x hx).2
    have hge := (h'.range y hy).1
    omega
  range := by
    intro slot hmem
    rcases List.mem_append.1 hmem with hmem | hmem
    · have := h.range slot hmem
      omega
    · have := h'.range slot hmem
      omega

theorem cons (h : SlotsBetween low high xs) (hnew : slot ∉ xs) (hlow : low ≤ slot)
    (hhigh : slot < high) : SlotsBetween low high (slot :: xs) :=
  ⟨List.nodup_cons.2 ⟨hnew, h.nodup⟩, List.forall_mem_cons.2 ⟨⟨hlow, hhigh⟩, h.range⟩⟩

theorem mono (h : SlotsBetween mid high xs) {low' high' : Nat} (hlow : low' ≤ mid)
    (hhigh : high ≤ high') : SlotsBetween low' high' xs where
  nodup := h.nodup
  range slot hmem := by
    have := h.range slot hmem
    omega

theorem right (h : SlotsBetween low high (xs ++ ys)) : SlotsBetween low high ys where
  nodup := (List.nodup_append.1 h.nodup).2.1
  range slot hmem := h.range slot (List.mem_append_right xs hmem)

end SlotsBetween

variable {σ : BindSettings}

theorem BoundNode.ownSlots_of_isError {n : BoundNode} (h : n.isError) :
    n.shape.ownSlots = [] := by
  obtain ⟨shape, t, span⟩ := n
  cases shape <;> first | rfl | cases h

theorem Strict.ownSlots_eq {r : Registry} {P : Program} {shape : BoundShape} {t : Ty}
    (h : Strict r P shape t) : shape.ownSlots = [] := by
  cases h <;> rfl

theorem Sequence.declaredSlots {E : Elaborating}
    (hE : ∀ {node s n s'}, E node s n s' → s.WellScoped →
      s.Extends s' ∧ SlotsBetween s.nextSlot s'.nextSlot n.declaredSlots)
    {nodes : List SyntaxNode} {s s' : BindState} {ns : List BoundNode}
    (h : Sequence E nodes s ns s') (hs : s.WellScoped) :
    SlotsBetween s.nextSlot s'.nextSlot (ns.flatMap BoundNode.declaredSlots) := by
  induction h with
  | nil => exact .nil
  | cons hnode hnodes ih =>
    obtain ⟨hextends, hfirst⟩ := hE hnode hs
    have hs₁ := hextends.wellScoped hs
    have hle := (hnodes.extends (fun h hs => (hE h hs).1) hs₁).nextSlot
    rw [List.flatMap_cons]
    exact hfirst.append (ih hs₁) hextends.nextSlot hle

/-- The declarations of a tree have the slots that binding it has given out. -/
theorem Elaborates.declaredSlots {node : SyntaxNode} {s s' : BindState} {n : BoundNode}
    (h : Elaborates σ node s n s') (hs : s.WellScoped) :
    SlotsBetween s.nextSlot s'.nextSlot n.declaredSlots := by
  induction h using Elaborates.induct with
  | step h hrule =>
    rw [BoundNode.declaredSlots_eq]
    cases hrule with
    | failure hn _ =>
      rw [BoundNode.children_of_isError hn, BoundNode.ownSlots_of_isError hn]
      exact .nil
    | literal => exact .nil
    | localVar => exact .nil
    | receiverField =>
      simp only [BoundShape.ownSlots, BoundNode.children, List.flatMap_singleton, List.nil_append]
      rw [BoundNode.declaredSlots_eq]
      exact .nil
    | moduleField => exact .nil
    | strict _ _ hall hstrict _ =>
      rw [hstrict.ownSlots_eq]
      exact hall.declaredSlots (fun h hs => ⟨h.1.extends hs, h.2 hs⟩) hs
    | memberCall _ _ hall =>
      exact hall.declaredSlots (fun h hs => ⟨h.1.extends hs, h.2 hs⟩) hs
    | staticCall _ _ hall hstrict =>
      rw [hstrict.ownSlots_eq]
      exact (hall.declaredSlots (fun h hs => ⟨h.1.extends hs, h.2 hs⟩) hs).right
    | conditional _ _ hall =>
      exact hall.declaredSlots (fun h hs => ⟨h.1.extends hs, h.2 hs⟩) hs
    | logical _ _ _ hall =>
      have hboth := hall.declaredSlots (fun h hs => ⟨h.1.extends hs, h.2 hs⟩) hs
      split
      · exact hboth
      · exact hboth
    | cast hoperand =>
      obtain ⟨-, ih⟩ := hoperand
      simp only [BoundShape.ownSlots, BoundNode.children, List.flatMap_singleton, List.nil_append]
      exact ih hs
    | operand _ _ _ hchild =>
      obtain ⟨-, ih⟩ := hchild
      have hslots := ih hs
      rw [BoundNode.declaredSlots_eq] at hslots
      exact hslots
    | block _ hall hq =>
      rw [hq.nextSlot, closeScope_nextSlot]
      exact hall.declaredSlots (fun h hs => ⟨h.1.extends hs, h.2 hs⟩) (pushScope_wellScoped hs)
    | varDecl _ _ hinitial _ hadds =>
      obtain ⟨hinitial, ih⟩ := hinitial
      have hslots := ih hs
      rw [hadds.nextSlot, hadds.slot]
      simp only [BoundShape.ownSlots, BoundNode.children, List.flatMap_singleton,
        List.singleton_append]
      refine (hslots.mono (Nat.le_refl _) (Nat.le_succ _)).cons ?_ (hinitial.extends hs).nextSlot
        (Nat.lt_succ_self _)
      intro hmem
      exact absurd (hslots.range _ hmem).2 (Nat.lt_irrefl _)
    | aggregate _ _ _ hsource _ hadds hbody hq =>
      obtain ⟨hsource, ihsource⟩ := hsource
      obtain ⟨hbody, ihbody⟩ := hbody
      have hloops := hsource.loops hadds hbody hq hs
      have hbefore := hloops.source.nextSlot
      have hfirst := ihsource hs
      have hsecond := ihbody hloops.wellScoped
      have hle := hloops.body_nextSlot
      rw [hadds.nextSlot] at hsecond hle
      rw [← hloops.encloses.nextSlot] at hsecond
      rw [hadds.slot]
      simp only [BoundShape.ownSlots, BoundNode.children, List.flatMap_cons, List.flatMap_nil,
        List.append_nil, List.singleton_append]
      refine ((hfirst.mono (Nat.le_refl _) (Nat.le_succ _)).append hsecond
        (Nat.le_succ_of_le hbefore) hle).cons ?_ hbefore hle
      intro hmem
      rcases List.mem_append.1 hmem with hmem | hmem
      · exact absurd (hfirst.range _ hmem).2 (Nat.lt_irrefl _)
      · exact absurd (hsecond.range _ hmem).1 (Nat.not_succ_le_self _)

mutual

/-- A tree may leave a variable in the scope around it. -/
def SyntaxNode.exports : SyntaxNode → Bool
  | ⟨kind, _, children, _⟩ =>
    match kind with
    | .varDecl => true
    | .block => false
    -- The source of a loop is bound outside the scope of the loop.
    | .aggregate _ => headExports children
    | _ => anyExports children

def headExports : List SyntaxNode → Bool
  | [] => false
  | node :: _ => node.exports

def anyExports : List SyntaxNode → Bool
  | [] => false
  | node :: rest => node.exports || anyExports rest

end

theorem anyExports_eq_false_iff {nodes : List SyntaxNode} :
    anyExports nodes = false ↔ ∀ node ∈ nodes, node.exports = false := by
  induction nodes with
  | nil => simp [anyExports]
  | cons node rest ih => simp [anyExports, ih]

/-- A loop exports nothing, but the source is bound in the scope around it. -/
theorem SyntaxNode.exports_of_aggregate {node child : SyntaxNode} {rest : List SyntaxNode}
    {kind : AggregateKind} (hkind : node.kind = .aggregate kind)
    (hchildren : node.children = child :: rest) : node.exports = child.exports := by
  obtain ⟨kind, text?, children, span⟩ := node
  obtain rfl : kind = _ := hkind
  obtain rfl : children = _ := hchildren
  rw [exports]
  rfl

theorem SyntaxNode.exports_of_varDecl {node : SyntaxNode} (hkind : node.kind = .varDecl) :
    node.exports = true := by
  obtain ⟨kind, text?, children, span⟩ := node
  obtain rfl : kind = _ := hkind
  rw [exports]

theorem SyntaxNode.exports_of_block {node : SyntaxNode} (hkind : node.kind = .block) :
    node.exports = false := by
  obtain ⟨kind, text?, children, span⟩ := node
  obtain rfl : kind = _ := hkind
  rw [exports]

/-- A tree that opens no scope exports what its children do. -/
theorem SyntaxNode.child_exports {node : SyntaxNode} (hkind : node.kind.opensScope = false)
    (h : node.exports = false) : ∀ child ∈ node.children, child.exports = false := by
  obtain ⟨kind, text?, children, span⟩ := node
  rw [← anyExports_eq_false_iff]
  unfold exports at h
  split at h
  · cases h
  · cases hkind
  · cases hkind
  · exact h

/-- An error child is reported, so there is none where nothing is reported. -/
theorem no_errors_of_not_reports {s s' : BindState} {ns : List BoundNode}
    (h : ¬s.Reports s') (herror : ∀ c ∈ ns, c.isError → s.Reports s') :
    ∀ c ∈ ns, c.isError = false :=
  fun c hc => Bool.eq_false_iff.2 fun he => h (herror c hc he)

theorem Sequence.sees_of_not_exports {E : Elaborating} {var : LocalVar}
    (hE : ∀ {node s n s'}, E node s n s' → s.WellScoped → s.Extends s' ∧
      (¬s.Reports s' → n.isError = false → node.exports = false → s'.Sees var → s.Sees var))
    {nodes : List SyntaxNode} {s s' : BindState} {ns : List BoundNode}
    (h : Sequence E nodes s ns s') (hs : s.WellScoped) (hclean : ¬s.Reports s')
    (hns : ∀ n ∈ ns, n.isError = false) (hexports : ∀ node ∈ nodes, node.exports = false)
    (hvar : s'.Sees var) : s.Sees var := by
  induction h with
  | nil hq => exact hq.sees_iff.1 hvar
  | cons hnode hnodes ih =>
    obtain ⟨hextends, hfirst⟩ := hE hnode hs
    have hs₁ := hextends.wellScoped hs
    obtain ⟨hclean₁, hclean'⟩ := not_reports_parts hclean hextends.diagnostics
      (hnodes.extends (fun h hs => (hE h hs).1) hs₁).diagnostics
    rw [List.forall_mem_cons] at hns hexports
    have hvar₁ := ih hs₁ hclean' hns.2 hexports.2 hvar
    exact hfirst hclean₁ hns.1 hexports.1 hvar₁

/-- A tree that was bound without errors and exports nothing leaves no variable behind. -/
theorem Elaborates.sees_of_not_exports {node : SyntaxNode} {s s' : BindState} {n : BoundNode}
    {var : LocalVar} (h : Elaborates σ node s n s') (hs : s.WellScoped) (hclean : ¬s.Reports s')
    (hn : n.isError = false) (hexports : node.exports = false) (hvar : s'.Sees var) :
    s.Sees var := by
  induction h using Elaborates.induct with
  | step h hrule =>
    cases hrule with
    | failure herror _ => exact absurd herror (Bool.eq_false_iff.1 hn)
    | literal _ hq => exact hq.sees_iff.1 hvar
    | localVar _ hq => exact hq.sees_iff.1 hvar
    | receiverField _ hq => exact hq.sees_iff.1 hvar
    | moduleField _ hq => exact hq.sees_iff.1 hvar
    | strict hkind hkids hall _ herror =>
      have hkidsExport := SyntaxNode.child_exports hkind hexports
      exact hall.sees_of_not_exports (fun h hs => ⟨h.1.extends hs, h.2 hs⟩) hs hclean
        (no_errors_of_not_reports hclean herror)
        (fun child hmem => hkidsExport child (hkids.subset hmem)) hvar
    | memberCall hkind hkids hall _ _ herror =>
      have hkidsExport := SyntaxNode.child_exports (by rw [hkind]; rfl) hexports
      exact hall.sees_of_not_exports (fun h hs => ⟨h.1.extends hs, h.2 hs⟩) hs hclean
        (no_errors_of_not_reports hclean herror) (hkids ▸ hkidsExport) hvar
    | staticCall hkind hkids hall _ hreceiver herror =>
      have hkidsExport := SyntaxNode.child_exports (by rw [hkind]; rfl) hexports
      exact hall.sees_of_not_exports (fun h hs => ⟨h.1.extends hs, h.2 hs⟩) hs hclean
        (List.forall_mem_cons.2 ⟨hreceiver, no_errors_of_not_reports hclean herror⟩)
        (hkids ▸ hkidsExport) hvar
    | conditional hkind hkids hall _ _ herror =>
      have hkidsExport := SyntaxNode.child_exports
        (by rcases hkind with hkind | hkind <;> rw [hkind] <;> rfl) hexports
      exact hall.sees_of_not_exports (fun h hs => ⟨h.1.extends hs, h.2 hs⟩) hs hclean
        (no_errors_of_not_reports hclean herror) (hkids ▸ hkidsExport) hvar
    | logical hkind _ hkids hall _ _ herror =>
      have hkidsExport := SyntaxNode.child_exports (by rw [hkind]; rfl) hexports
      exact hall.sees_of_not_exports (fun h hs => ⟨h.1.extends hs, h.2 hs⟩) hs hclean
        (no_errors_of_not_reports hclean herror) (hkids ▸ hkidsExport) hvar
    | cast hoperand _ _ herror =>
      obtain ⟨-, ih⟩ := hoperand
      exact ih hs hclean herror hexports hvar
    | operand _ hkind hmem hchild =>
      obtain ⟨-, ih⟩ := hchild
      have hkidsExport := SyntaxNode.child_exports (by rw [hkind]; rfl) hexports
      exact ih hs hclean hn (hkidsExport _ hmem) hvar
    | block _ hall hq _ =>
      exact (hall.elaborates.encloses hs hq).sees_iff.1 hvar
    | varDecl hkind =>
      rw [SyntaxNode.exports_of_varDecl hkind] at hexports
      cases hexports
    | aggregate hkind hchildren _ hsource _ hadds hbody hq _ _ _ hsourceError _ =>
      obtain ⟨hsource, ih⟩ := hsource
      obtain ⟨hbody, -⟩ := hbody
      have hloops := hsource.loops hadds hbody hq hs
      rw [SyntaxNode.exports_of_aggregate hkind hchildren] at hexports
      exact ih hs (hloops.not_reports hclean).1 hsourceError hexports
        (hloops.encloses.sees_iff.1 hvar)

end RuleExpr

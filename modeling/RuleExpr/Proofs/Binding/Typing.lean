import RuleExpr.Proofs.Binding.Answers
import RuleExpr.Proofs.Binding.Scoping
import RuleExpr.Proofs.Cast.Registry

/-!
# Bound Trees Are Well Typed

Every node of a bound tree has the type that its children give it, and the children have the types
that the node asks for.  Types are compared by key, and a child that could not be bound may have
any type.  This holds of every answer of binding with the standard registry, also when parts of the
tree were reported: an error node stands in the place of what it replaces.
-/

namespace RuleExpr

open BindM BindState

/-- A node has the type `t`, unless it could not be bound. -/
def BoundNode.HasType (n : BoundNode) (t : Ty) : Prop := n.isError = false → n.ty.key = t.key

/-- The nodes of a tree that read a slot have the type `t`. -/
def BoundNode.ReadsAs (root : BoundNode) (slot : Nat) (t : Ty) : Prop :=
  ∀ n : BoundNode, n.Within root → ∀ name, n.shape = .localVar name slot → n.ty.key = t.key

/-- The arguments of a call, one for each parameter and of its type. -/
def ArgumentsFit (m : Method) (arguments : List BoundNode) : Prop :=
  arguments.length = m.arity ∧
    List.Forall₂ (fun param c => BoundNode.HasType c param) m.params arguments

/-- A node of type `t` goes together with its children.  Branches without a common type are kept
under settings that say so. -/
def Consistent (mode : WideningFailure) (shape : BoundShape) (t : Ty) : Prop :=
  match shape with
  | .cast operand cast => operand.HasType cast.source ∧ t.key = cast.target.key
  | .methodCall m _ arguments => ArgumentsFit m arguments ∧ t.key = m.returns.key
  | .constructor m arguments => ArgumentsFit m arguments ∧ t.key = m.returns.key
  | .conditional condition yes no? => condition.HasType .boolean ∧
      ((∀ branch ∈ yes :: no?.toList, branch.HasType t) ∨
        mode = .keepBranches ∧ t.key = Ty.object.key)
  | .and left right => left.HasType .boolean ∧ right.HasType .boolean
  | .or left right => left.HasType .boolean ∧ right.HasType .boolean
  | .arrayElement array index => index.HasType .int ∧
      ∃ component, array.ty.component? = some component ∧ t.key = component.key
  | .newArray _ size => size.HasType .int
  | .arrayInit elements =>
      ∃ component, t.component? = some component ∧ ∀ element ∈ elements, element.HasType component
  | .varDecl _ initial => initial.HasType t
  | .aggregate kind source slot cast? body => (kind.isFilter → body.HasType .boolean) ∧
      ∀ cast ∈ cast?, body.ReadsAs slot cast.target ∧
        ∃ element, source.ty.component? = some element ∧ cast.source.key = element.key
  | _ => True

theorem BoundNode.wrap_hasType {r : Registry} (hr : r.Faithful) {b : BoundNode} {t : Ty}
    {cast : Cast} (h : r.cast b.ty t = .ok (some cast)) : (b.wrap cast).HasType t := by
  intro _
  unfold wrap
  split
  case isTrue hidentity => exact hr h hidentity
  case isFalse => exact (Registry.cast_endpoints h).2

theorem Fits.hasType {r : Registry} (hr : r.Faithful) {t : Ty} {c : BoundNode} (h : Fits r t c) :
    c.HasType t := by
  obtain ⟨b, hb⟩ := h
  cases hb with
  | same hkey => exact fun _ => hkey
  | cast hcast => exact BoundNode.wrap_hasType hr hcast
  | failed herror => exact fun hbound => absurd herror (Bool.eq_false_iff.1 hbound)

theorem argumentsFit_of_fits {r : Registry} (hr : r.Faithful) {m : Method}
    {arguments : List BoundNode} (h : List.Forall₂ (Fits r) m.params arguments) :
    ArgumentsFit m arguments :=
  ⟨h.length_eq.symm, h.imp fun _ _ hfits => hfits.hasType hr⟩

theorem LoopCast.readsAs {r : Registry} {element t : Ty} {cast : Cast}
    (h : LoopCast r element t (some cast)) :
    cast.source.key = element.key ∧ cast.target.key = t.key := by
  cases h with
  | cast hcast => exact Registry.cast_endpoints hcast

variable {σ : BindSettings}

theorem Strict.consistent (hr : σ.registry.Faithful) {P : Program} {mode : WideningFailure}
    {shape : BoundShape} {t : Ty} (h : Strict σ.registry P shape t) : Consistent mode shape t := by
  cases h with
  | fieldAccess => trivial
  | arrayLength => trivial
  | arrayElement hcomponent hindex => exact ⟨hindex.hasType hr, _, hcomponent, rfl⟩
  | newArray hsize _ => exact hsize.hasType hr
  | arrayInit helements ht =>
    obtain ⟨known, rfl, hkey⟩ := ht
    refine ⟨known, rfl, ?_⟩
    intro element hmem hbound
    rw [hkey]
    exact (helements element hmem).hasType hr hbound
  | call _ _ harguments => exact ⟨argumentsFit_of_fits hr harguments, rfl⟩
  | construct _ _ harguments => exact ⟨argumentsFit_of_fits hr harguments, rfl⟩

theorem BoundNode.consistent_of_isError {mode : WideningFailure} {n : BoundNode}
    (h : n.isError) : Consistent mode n.shape n.ty := by
  obtain ⟨shape, t, span⟩ := n
  cases shape <;> trivial

/-- In the body of a loop only its own variable has its slot. -/
theorem Elaborates.readsAs {node : SyntaxNode} {s s₁ s' : BindState} {body : BoundNode}
    {var : LocalVar} (hs : s.WellScoped) (hslots : s.SlotsBelow) (hadds : s.Adds var s₁)
    (h : Elaborates σ node s₁ body s') : body.ReadsAs var.slot var.ty := by
  intro n hn name hshape
  have hs₁ := (hadds.fills hs.scopes).wellScoped hs
  have hlt : var.slot < s₁.nextSlot := by
    rw [hadds.slot, hadds.nextSlot]
    exact Nat.lt_succ_self _
  obtain ⟨other, hother, hslot, ht⟩ := h.readsVisible hs₁ n hn name var.slot hshape hlt
  rcases hadds.sees hother with hother | rfl
  · have hbelow := hslots other hother
    rw [hslot, hadds.slot] at hbelow
    exact absurd hbelow (Nat.lt_irrefl _)
  · rw [ht]

theorem Sequence.consistent {E : Elaborating} {mode : WideningFailure}
    (hE : ∀ {node s n s'}, E node s n s' → s.WellScoped → s.SlotsBelow →
      s.Extends s' ∧ n.AllNodes (Consistent mode))
    {nodes : List SyntaxNode} {s s' : BindState} {ns : List BoundNode}
    (h : Sequence E nodes s ns s') (hs : s.WellScoped) (hslots : s.SlotsBelow) :
    ∀ n ∈ ns, n.AllNodes (Consistent mode) := by
  induction h with
  | nil => exact List.forall_mem_nil _
  | cons hnode _ ih =>
    obtain ⟨hextends, hfirst⟩ := hE hnode hs hslots
    have hrest := ih (hextends.wellScoped hs) (hextends.slotsBelow hslots)
    exact List.forall_mem_cons.2 ⟨hfirst, hrest⟩

theorem Elaborates.consistent (hr : σ.registry.Faithful) {node : SyntaxNode} {s s' : BindState}
    {n : BoundNode} (h : Elaborates σ node s n s') (hs : s.WellScoped) (hslots : s.SlotsBelow) :
    n.AllNodes (Consistent σ.config.wideningFailure) := by
  induction h using Elaborates.induct with
  | step h hrule =>
    cases hrule with
    | failure hn _ =>
      refine .intro (BoundNode.consistent_of_isError hn) ?_
      rw [BoundNode.children_of_isError hn]
      exact List.forall_mem_nil _
    | literal => exact .intro trivial (List.forall_mem_nil _)
    | localVar => exact .intro trivial (List.forall_mem_nil _)
    | receiverField =>
      exact .intro trivial (List.forall_mem_singleton.2 (.intro trivial (List.forall_mem_nil _)))
    | moduleField => exact .intro trivial (List.forall_mem_nil _)
    | strict _ _ hall hstrict _ =>
      exact .intro (hstrict.consistent hr)
        (hall.consistent (fun ⟨h, ih⟩ hs hslots => ⟨h.extends hs, ih hs hslots⟩) hs hslots)
    | memberCall _ _ hall _ harguments _ =>
      exact .intro ⟨argumentsFit_of_fits hr harguments, rfl⟩
        (hall.consistent (fun ⟨h, ih⟩ hs hslots => ⟨h.extends hs, ih hs hslots⟩) hs hslots)
    | staticCall _ _ hall hstrict =>
      have hchildren :=
        hall.consistent (fun ⟨h, ih⟩ hs hslots => ⟨h.extends hs, ih hs hslots⟩) hs hslots
      exact .intro (hstrict.consistent hr) (List.forall_mem_cons.1 hchildren).2
    | conditional _ _ hall hcondition hbranches _ =>
      refine .intro ⟨hcondition.hasType hr, ?_⟩
        (hall.consistent (fun ⟨h, ih⟩ hs hslots => ⟨h.extends hs, ih hs hslots⟩) hs hslots)
      rcases hbranches with hbranches | ⟨hmode, ht⟩
      · exact .inl fun branch hbranch => (hbranches branch hbranch).hasType hr
      · exact .inr ⟨hmode, congrArg Ty.key ht⟩
    | logical _ _ _ hall hleft hright _ =>
      have hchildren :=
        hall.consistent (fun ⟨h, ih⟩ hs hslots => ⟨h.extends hs, ih hs hslots⟩) hs hslots
      have hboth := And.intro (hleft.hasType hr) (hright.hasType hr)
      split
      · exact .intro hboth hchildren
      · exact .intro hboth hchildren
    | cast hoperand hcast _ _ =>
      obtain ⟨-, ih⟩ := hoperand
      exact .intro ⟨fun _ => (Registry.cast_endpoints hcast).1.symm, rfl⟩
        (List.forall_mem_singleton.2 (ih hs hslots))
    | operand span _ _ hchild =>
      obtain ⟨-, ih⟩ := hchild
      exact (ih hs hslots).respan span
    | block _ hall =>
      exact .intro trivial
        (hall.consistent (fun ⟨h, ih⟩ hs hslots => ⟨h.extends hs, ih hs hslots⟩)
          (pushScope_wellScoped hs) (slotsBelow_pushScope hslots))
    | varDecl _ _ hinitial hfits =>
      obtain ⟨-, ih⟩ := hinitial
      exact .intro (hfits.hasType hr) (List.forall_mem_singleton.2 (ih hs hslots))
    | aggregate _ _ _ hsource helement hadds hbody hq hcast hfilter =>
      obtain ⟨hsource, ihsource⟩ := hsource
      obtain ⟨hbody, ihbody⟩ := hbody
      have hloops := hsource.loops hadds hbody hq hs
      have hbodyNodes := ihbody hloops.wellScoped (hloops.slotsBelow hslots)
      refine .intro ⟨fun hkind => (hfilter hkind).hasType hr, ?_⟩ (List.forall_mem_cons.2
        ⟨ihsource hs hslots, List.forall_mem_singleton.2 hbodyNodes⟩)
      rintro cast ⟨⟩
      obtain ⟨hfrom, hto⟩ := hcast.readsAs
      refine ⟨fun n hn name hshape => ?_, _, helement, hfrom⟩
      rw [hto]
      have hopen := pushScope_wellScoped hloops.encloses.wellScoped
      exact hbody.readsAs hopen (hloops.slotsBelow_open hslots) hadds n hn name hshape

/-- Whatever the module, the settings and the tree: every node of an answer that could be bound is
consistent with its children.  The context is a fresh one, or any other in which visible variables
have slots that were given out. -/
theorem bind_wellTyped {node : SyntaxNode} {config : Config} {s s' : BindState} {root : BoundNode}
    (hs : Reachable s) (hslots : s.SlotsBelow)
    (hrun : bind node (.standard config) s = (.ok root, s')) :
    ∀ n : BoundNode, n.Within root → n.isError = false →
      Consistent config.wideningFailure n.shape n.ty := by
  intro n hn _
  have hanswer := bind_answers node hs.wellScoped hrun
  exact hanswer.elaborates.consistent Library.registry_faithful hs.wellScoped hslots n hn

/-- A loop over integers with a variable of a wider type, in a fresh context. -/
theorem bind_wellTyped_loop :
    let owner := RuleModule.empty "Rules" "rules" 0
    let node : SyntaxNode := ⟨.aggregate .collect, none,
      [⟨.arrayInit, none, [.leaf (.literal .integer) "1" .nowhere], .nowhere⟩,
        ⟨.loopVar, some "x", [.leaf .typeName "long" .nowhere], .nowhere⟩,
        .leaf .identifier "x" .nowhere], .nowhere⟩
    ∃ root s', bind node (.standard .standard) (.start owner .empty) = (.ok root, s') ∧
      root.isError = false ∧
      ∀ n : BoundNode, n.Within root → n.isError = false → Consistent .error n.shape n.ty := by
  intro owner node
  have hbound : (bind node (.standard .standard) (.start owner .empty)).1.toOption.any
      (!·.isError) = true := by decide +kernel
  match hrun : bind node (.standard .standard) (.start owner .empty) with
  | (.ok root, s') =>
    rw [hrun] at hbound
    refine ⟨root, s', rfl, by simpa [Except.toOption] using hbound, ?_⟩
    exact bind_wellTyped (.start owner .empty) (start_slotsBelow owner .empty) hrun
  | (.error e, s') =>
    rw [hrun] at hbound
    cases hbound

end RuleExpr

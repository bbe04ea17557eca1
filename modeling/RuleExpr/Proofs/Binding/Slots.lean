import RuleExpr.Proofs.Binding.Answers
import RuleExpr.Proofs.Binding.Scoping

/-!
# What the Nodes of a Bound Tree Refer To

A node refers to slots, which it reads or stores to, and to methods, which it calls.  All slots of
a bound tree were given out when it was bound, and all its methods were provided by the program that
it was bound against or by the library.
-/

namespace RuleExpr

open BindM BindState

/-- The slot that a node itself reads or stores to. -/
def BoundShape.slots : BoundShape → List Nat
  | .localVar _ slot => [slot]
  | shape => shape.ownSlots

/-- Methods that come from the module or from the members of types. -/
inductive Program.Offers (P : Program) (m : Method) : Prop
  | free {name : String} (h : m ∈ P.methodsNamed name) : P.Offers m
  | member {t : Ty} {name : String} (h : m ∈ P.declarations.methodsNamed t name) : P.Offers m
  | constructor {t : Ty} (h : m ∈ P.declarations.constructors t) : P.Offers m

/-- Methods that a tree bound against the program may call. -/
inductive Program.Provides (P : Program) (m : Method) : Prop
  | offered (h : P.Offers m) : P.Provides m
  | operator {name : String} (h : m ∈ Library.operatorsNamed name) : P.Provides m
  | conversion {entry : Conversion} (h : entry ∈ Library.casts.entries) (hm : entry.method = m) :
      P.Provides m

theorem Program.Callable.provides {P : Program} {receiver? : Option Ty} {m : Method}
    (h : P.Callable receiver? m) : P.Provides m := by
  cases h with
  | free h => exact .offered (.free h)
  | operator h => exact .operator h
  | member h => exact .offered (.member h)
  | static h => exact .offered (.member h)
  | constructor h => exact .offered (.constructor h)

/-- Structural casts call nothing, so a cast that calls a method comes from the library. -/
theorem Program.provides_of_cast (P : Program) {a b : Ty} {c : Cast} {m : Method}
    (h : Library.registry.cast a b = .ok (some c)) (hm : c.kind = .method m) : P.Provides m := by
  rcases Library.registry_cast h with hstructural | ⟨entry, hentry⟩
  · have hkind := hstructural.kind
    rw [hm] at hkind
    cases hkind
  · refine .conversion hentry.mem ?_
    rw [hentry.kind_eq] at hm
    exact CastKind.method.inj hm

/-- A node refers to slots below `bound` and to methods that the program provides. -/
structure BoundShape.Allocated (P : Program) (bound : Nat) (shape : BoundShape) : Prop where
  slots_lt : ∀ slot ∈ shape.slots, slot < bound
  provides : ∀ m, shape.Calls m → P.Provides m

/-- All nodes of a tree refer to slots below `bound` and to methods that the program provides. -/
def BoundNode.Allocated (P : Program) (bound : Nat) (n : BoundNode) : Prop :=
  n.AllNodes fun shape _ => shape.Allocated P bound

theorem BoundNode.Allocated.mono {P : Program} {bound bound' : Nat} {n : BoundNode}
    (h : n.Allocated P bound) (hle : bound ≤ bound') : n.Allocated P bound' :=
  h.imp fun _ _ hshape =>
    ⟨fun slot hmem => Nat.lt_of_lt_of_le (hshape.slots_lt slot hmem) hle, hshape.provides⟩

/-- A node that refers to nothing itself. -/
theorem BoundShape.Allocated.of_nothing {P : Program} {bound : Nat} {shape : BoundShape}
    (hslots : shape.slots = []) (hcalls : ∀ m, ¬shape.Calls m) : shape.Allocated P bound where
  slots_lt := by
    rw [hslots]
    exact List.forall_mem_nil _
  provides m h := absurd h (hcalls m)

variable {config : Config}

theorem Strict.allocated {r : Registry} {P : Program} {bound : Nat} {shape : BoundShape} {t : Ty}
    (h : Strict r P shape t) : shape.Allocated P bound := by
  cases h with
  | call hm =>
    refine ⟨List.forall_mem_nil _, ?_⟩
    rintro m ⟨⟩
    exact hm.provides
  | construct hm =>
    refine ⟨List.forall_mem_nil _, ?_⟩
    rintro m ⟨⟩
    exact hm.provides
  | _ => exact .of_nothing rfl (fun _ h => nomatch h)

theorem BoundNode.allocated_of_isError {P : Program} {bound : Nat} {n : BoundNode}
    (h : n.isError) : n.Allocated P bound := by
  obtain ⟨shape, t, span⟩ := n
  cases shape with
  | error message => exact .intro (.of_nothing rfl fun _ h => nomatch h) (List.forall_mem_nil _)
  | _ => cases h

theorem Sequence.allocated {nodes : List SyntaxNode} {s s' : BindState} {ns : List BoundNode}
    (h : Sequence (fun node s n s' => ∃ _ : Elaborates (.standard config) node s n s',
      s.WellScoped → s.SlotsBelow → n.Allocated s.program s'.nextSlot) nodes s ns s')
    (hs : s.WellScoped) (hslots : s.SlotsBelow) :
    ∀ n ∈ ns, n.Allocated s.program s'.nextSlot := by
  induction h with
  | nil => exact List.forall_mem_nil _
  | cons hnode hnodes ih =>
    obtain ⟨hnode, hfirst⟩ := hnode
    have hextends := hnode.extends hs
    have hs₁ := hextends.wellScoped hs
    have hrest := ih hs₁ (hextends.slotsBelow hslots)
    rw [hextends.program] at hrest
    have hle := (hnodes.elaborates.extends hs₁).nextSlot
    exact List.forall_mem_cons.2 ⟨(hfirst hs hslots).mono hle, hrest⟩

/-- A bound tree refers to slots that were given out and to methods that were provided. -/
theorem Elaborates.allocated {node : SyntaxNode} {s s' : BindState} {n : BoundNode}
    (h : Elaborates (.standard config) node s n s') (hs : s.WellScoped) (hslots : s.SlotsBelow) :
    n.Allocated s.program s'.nextSlot := by
  induction h using Elaborates.induct with
  | step h hrule =>
    cases hrule with
    | failure hn _ => exact BoundNode.allocated_of_isError hn
    | literal =>
      exact .intro (.of_nothing rfl fun _ h => nomatch h) (List.forall_mem_nil _)
    | localVar hvar hq =>
      refine .intro ⟨List.forall_mem_singleton.2 ?_, fun _ h => nomatch h⟩ (List.forall_mem_nil _)
      rw [hq.nextSlot]
      exact hslots _ (sees_of_findVar hvar)
    | receiverField hfield hq =>
      refine .intro (.of_nothing rfl fun _ h => nomatch h) (List.forall_mem_singleton.2 ?_)
      refine .intro ⟨List.forall_mem_singleton.2 ?_, fun _ h => nomatch h⟩ (List.forall_mem_nil _)
      rw [hq.nextSlot]
      exact hslots _ (sees_of_findReceiverField hfield)
    | moduleField =>
      exact .intro (.of_nothing rfl fun _ h => nomatch h) (List.forall_mem_nil _)
    | strict _ _ hall hstrict _ =>
      have hchildren := hall.allocated hs hslots
      exact .intro hstrict.allocated hchildren
    | memberCall _ _ hall hm _ _ =>
      have hchildren := hall.allocated hs hslots
      refine .intro ⟨List.forall_mem_nil _, ?_⟩ hchildren
      rintro m ⟨⟩
      exact hm.provides
    | staticCall _ _ hall hstrict =>
      have hchildren := hall.allocated hs hslots
      exact .intro hstrict.allocated (List.forall_mem_cons.1 hchildren).2
    | conditional _ _ hall =>
      have hchildren := hall.allocated hs hslots
      exact .intro (.of_nothing rfl fun _ h => nomatch h) hchildren
    | logical _ _ _ hall =>
      have hchildren := hall.allocated hs hslots
      split
      · exact .intro (.of_nothing rfl fun _ h => nomatch h) hchildren
      · exact .intro (.of_nothing rfl fun _ h => nomatch h) hchildren
    | cast hoperand hcast _ _ =>
      obtain ⟨-, ih⟩ := hoperand
      refine .intro ⟨List.forall_mem_nil _, ?_⟩ (List.forall_mem_singleton.2 (ih hs hslots))
      intro m hcall
      cases hcall with
      | cast hm => exact Program.provides_of_cast _ hcast hm
    | operand span _ _ hchild =>
      obtain ⟨-, ih⟩ := hchild
      exact (ih hs hslots).respan span
    | block _ hall hq =>
      have hchildren := hall.allocated (pushScope_wellScoped hs) (slotsBelow_pushScope hslots)
      rw [hq.nextSlot, closeScope_nextSlot]
      exact .intro (.of_nothing rfl fun _ h => nomatch h) hchildren
    | varDecl _ _ hinitial _ hadds =>
      obtain ⟨-, ih⟩ := hinitial
      rw [hadds.nextSlot]
      refine .intro ⟨List.forall_mem_singleton.2 ?_, fun _ h => nomatch h⟩
        (List.forall_mem_singleton.2 ((ih hs hslots).mono (Nat.le_succ _)))
      rw [hadds.slot]
      exact Nat.lt_succ_self _
    | aggregate _ _ _ hsource _ hadds hbody hq hcast =>
      obtain ⟨hsource, ihsource⟩ := hsource
      obtain ⟨hbody, ihbody⟩ := hbody
      have hloops := hsource.loops hadds hbody hq hs
      have hsourceNodes := (ihsource hs hslots).mono hloops.encloses.extends.nextSlot
      have hbodyNodes := ihbody hloops.wellScoped (hloops.slotsBelow hslots)
      rw [hloops.program, ← hloops.encloses.nextSlot] at hbodyNodes
      refine .intro ⟨List.forall_mem_singleton.2 ?_, ?_⟩
        (List.forall_mem_cons.2 ⟨hsourceNodes, List.forall_mem_singleton.2 hbodyNodes⟩)
      · rw [hadds.slot]
        exact Nat.lt_of_lt_of_le (hadds.nextSlot ▸ Nat.lt_succ_self _) hloops.body_nextSlot
      · intro m hcall
        cases hcall with
        | elementCast hm =>
          cases hcast with
          | cast hcast => exact Program.provides_of_cast _ hcast hm

end RuleExpr

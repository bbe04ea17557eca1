import RuleExpr.Bound.Basic

/-!
# Nodes of a Bound Tree

The nodes of a bound tree, and what a node does by itself: the slots that it stores to, and the
methods that it calls.  What a tree does is what its nodes do.  The body of a method belongs to the
method and not to the trees that call it.
-/

namespace RuleExpr

/-- `n` is the node `root` or a node below it. -/
inductive BoundNode.Within (n : BoundNode) : BoundNode → Prop
  | refl : n.Within n
  | child {c root : BoundNode} (hc : c ∈ root.children) (h : n.Within c) : n.Within root

/-- What holds of the shape and the type of every node of a tree. -/
def BoundNode.AllNodes (P : BoundShape → Ty → Prop) (root : BoundNode) : Prop :=
  ∀ n : BoundNode, n.Within root → P n.shape n.ty

namespace BoundNode

variable {P Q : BoundShape → Ty → Prop} {root : BoundNode}

theorem AllNodes.intro (hroot : P root.shape root.ty)
    (hchildren : ∀ c ∈ root.children, c.AllNodes P) : root.AllNodes P := by
  intro n hn
  cases hn with
  | refl => exact hroot
  | child hc h => exact hchildren _ hc n h

theorem AllNodes.head (h : root.AllNodes P) : P root.shape root.ty := h root .refl

theorem AllNodes.child (h : root.AllNodes P) {c : BoundNode} (hc : c ∈ root.children) :
    c.AllNodes P :=
  fun n hn => h n (.child hc hn)

theorem AllNodes.imp (h : root.AllNodes P) (hPQ : ∀ shape t, P shape t → Q shape t) :
    root.AllNodes Q :=
  fun n hn => hPQ n.shape n.ty (h n hn)

theorem AllNodes.respan (h : root.AllNodes P) (span : Span) :
    AllNodes P { root with span } :=
  .intro h.head fun _ hc => h.child hc

theorem AllNodes.of_respan {span : Span} (h : AllNodes P { root with span }) : root.AllNodes P :=
  .intro h.head fun _ hc => h.child hc

end BoundNode

/-- The slot that a node itself stores to. -/
def BoundShape.ownSlots : BoundShape → List Nat
  | .varDecl slot _ => [slot]
  | .aggregate _ _ slot _ _ => [slot]
  | _ => []

/-- The slots of all declarations and loops of a tree. -/
def BoundNode.declaredSlots (n : BoundNode) : List Nat :=
  n.shape.ownSlots ++ n.children.attach.flatMap fun ⟨child, _⟩ => child.declaredSlots
termination_by sizeOf n
decreasing_by exact sizeOf_lt_of_mem_children ‹_›

theorem BoundNode.declaredSlots_eq (n : BoundNode) :
    n.declaredSlots = n.shape.ownSlots ++ n.children.flatMap declaredSlots := by
  rw [declaredSlots, List.flatMap_subtype fun _ _ => rfl, List.unattach_attach]

theorem BoundNode.Within.ownSlots_subset {n root : BoundNode} (h : n.Within root) :
    n.shape.ownSlots ⊆ root.declaredSlots := by
  induction h with
  | refl =>
    rw [declaredSlots_eq]
    exact List.subset_append_left _ _
  | @child c root hc _ ih =>
    intro slot hmem
    rw [declaredSlots_eq]
    exact List.mem_append_right _ (List.mem_flatMap.2 ⟨c, hc, ih hmem⟩)

/-- A node calls a method for its value, or to convert the value of another node. -/
inductive BoundShape.Calls (m : Method) : BoundShape → Prop
  | methodCall {target : Option BoundNode} {arguments : List BoundNode} :
      Calls m (.methodCall m target arguments)
  | constructor {arguments : List BoundNode} : Calls m (.constructor m arguments)
  | cast {operand : BoundNode} {c : Cast} (h : c.kind = .method m) : Calls m (.cast operand c)
  | elementCast {kind : AggregateKind} {source : BoundNode} {slot : Nat} {c : Cast}
      {body : BoundNode} (h : c.kind = .method m) :
      Calls m (.aggregate kind source slot (some c) body)

end RuleExpr

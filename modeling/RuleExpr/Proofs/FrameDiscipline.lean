import RuleExpr.Proofs.Evaluation.Frames

/-!
# The Frame Discipline of Evaluation

Evaluating a tree, with whatever outcome and in whatever frames, leaves the number of frames and
all frames below the topmost one as they were.  In the topmost frame it writes to the slots of the
declarations and loops of the tree and to no others.  The frame need not be as large as the tree
expects.  It may grow then, and the slots between its old end and the slot that was written hold
null.

A call pushes one frame and pops it again on every way out, so it leaves nothing behind in the
frames of its caller, although the slots of the called body have the same numbers as those of the
caller.
-/

namespace RuleExpr

open Fallible

namespace Frames

variable {before frames frames' : Frames} {slot other : Nat} {value held : Value}

/-- In an open frame, only the end of the frame can keep a slot from being read. -/
theorem load_of_not_ok (hstack : frames.stack ≠ []) (h : ∀ value, frames.load slot ≠ .ok value) :
    frames.load slot = .error (.slotOutOfRange slot) := by
  unfold load at h ⊢
  split
  case h_1 hnil => exact absurd hnil hstack
  case h_2 top rest hcons =>
    split
    case h_1 value hvalue => exact absurd (by simp only [hcons, hvalue]) (h value)
    case h_2 => rfl

theorem load_of_store_other (h : frames.store slot value = .ok frames') (hne : other ≠ slot)
    (hload : frames'.load other = .ok held) : frames.load other = .ok held ∨
      frames.load other = .error (.slotOutOfRange other) ∧ held = .null := by
  obtain ⟨top, rest, hbefore, hafter⟩ := store_eq_ok h
  obtain ⟨top', rest', hafter', hheld⟩ := load_eq_ok hload
  cases hafter.symm.trans hafter'
  rw [getElem?_write, if_neg hne] at hheld
  split at hheld
  case isTrue hlt =>
    left
    simp only [load, hbefore, hheld]
  case isFalse hge =>
    right
    have hnone : top[other]? = none := List.getElem?_eq_none (Nat.le_of_not_lt hge)
    split at hheld
    · cases hheld
      exact ⟨by simp only [load, hbefore, hnone], rfl⟩
    · cases hheld

/-- From `before` to `after`, at most the given slots of the topmost frame were written. -/
structure Spares (slots : List Nat) (before after : Frames) : Prop where
  depth_eq : after.depth = before.depth
  below_eq : after.stack.tail = before.stack.tail
  /-- A slot that was there and is not among the given ones holds what it held. -/
  kept : ∀ slot ∉ slots, ∀ value, before.load slot = .ok value → after.load slot = .ok value
  /-- Any other slot that is there now was there before, or is new and empty. -/
  grown : ∀ slot ∉ slots, ∀ value, after.load slot = .ok value → before.load slot = .ok value ∨
    before.load slot = .error (.slotOutOfRange slot) ∧ value = .null

namespace Spares

variable {slots : List Nat}

theorem refl (slots : List Nat) (frames : Frames) : Spares slots frames frames where
  depth_eq := rfl
  below_eq := rfl
  kept _ _ _ h := h
  grown _ _ _ h := .inl h

theorem store (h : Spares slots before frames) (hslot : slot ∈ slots)
    (hstore : frames.store slot value = .ok frames') : Spares slots before frames' := by
  obtain ⟨top, rest, hstack, hstack'⟩ := store_eq_ok hstore
  have hne {other : Nat} (hother : other ∉ slots) : other ≠ slot :=
    (ne_of_mem_of_not_mem hslot hother).symm
  have hdepth : frames'.depth = frames.depth := by
    simp only [depth, hstack, hstack', List.length_cons]
  refine ⟨hdepth.trans h.depth_eq, ?_, ?_, ?_⟩
  · rw [← h.below_eq, hstack, hstack', List.tail_cons, List.tail_cons]
  · intro other hother held hbefore
    exact load_store_other hstore (hne hother) (h.kept other hother held hbefore)
  · intro other hother held hheld
    rcases load_of_store_other hstore (hne hother) hheld with hload | ⟨hload, hnull⟩
    · exact h.grown other hother held hload
    · refine .inr ⟨load_of_not_ok ?_ ?_, hnull⟩
      · rintro hnil
        have := h.depth_eq
        simp only [depth, hstack, hnil, List.length_cons, List.length_nil] at this
        omega
      · intro held' hbefore
        rw [h.kept other hother held' hbefore] at hload
        cases hload

end Spares

end Frames

theorem store_spares {slots : List Nat} {before : Frames} {slot : Nat} (hslot : slot ∈ slots)
    (value : Value) : Keeps (before.Spares slots) (fun _ => True) (EvalM.store slot value) := by
  intro frames h
  refine ⟨?_, fun _ _ => trivial⟩
  match hstore : frames.store slot value with
  | .ok frames' =>
    simp only [EvalM.store, hstore]
    exact h.store hslot hstore
  | .error e =>
    simp only [EvalM.store, hstore]
    exact h

/-- Evaluation writes to the declared slots of its tree only, and a call writes to none. -/
theorem eval_respects_frames :
    (∀ (n : BoundNode) (frames : Frames), frames.Spares n.declaredSlots (n.eval frames).2) ∧
    ∀ (m : Method) (receiver : Option Value) (arguments : List Value) (frames : Frames),
      (m.invoke receiver arguments frames).2 = frames := by
  constructor
  · intro n frames
    have hnodes : n.AllNodes fun shape _ =>
        shape.Admits (frames.Spares n.declaredSlots) fun _ => True := by
      intro node hnode
      exact {
        ordinary := fun _ _ => trivial
        load := fun _ => load_keeps _
        store := fun slot hslot => store_spares (hnode.ownSlots_subset hslot)
        call := fun _ _ _ _ _ _ => trivial }
    exact (n.eval_keeps hnodes frames (.refl _ frames)).1
  · exact fun m receiver arguments => m.invoke_unchanging receiver arguments

end RuleExpr

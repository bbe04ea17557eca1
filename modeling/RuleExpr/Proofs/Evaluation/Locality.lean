import RuleExpr.Proofs.Evaluation.Composition

/-!
# Evaluation in the Topmost Frame

The frames below the topmost one make no difference to an evaluation.  A method runs in a frame of
its own, so what a call gives depends on its receiver and its arguments alone, and what a conversion
gives depends on its value alone: neither reads the frames of the caller.
-/

namespace RuleExpr

open Fallible

variable {α β : Type}

/-- The action does the same to the topmost frame, whatever the frames below it are. -/
def Local (act : EvalM α) : Prop :=
  ∀ top rest rest', ∃ r top',
    act ⟨top :: rest⟩ = (r, ⟨top' :: rest⟩) ∧ act ⟨top :: rest'⟩ = (r, ⟨top' :: rest'⟩)

/-- The action gives the same answer in all frames and leaves them as they are. -/
def Frameless (act : EvalM α) : Prop := ∃ r, ∀ frames, act frames = (r, frames)

theorem Frameless.local {act : EvalM α} (h : Frameless act) : Local act := by
  obtain ⟨r, hr⟩ := h
  exact fun top rest rest' => ⟨r, top, hr _, hr _⟩

theorem frameless_ofResult (r : Except EvalError α) : Frameless (ofResult r) := ⟨r, fun _ => rfl⟩

theorem Local.bind {x : EvalM α} {f : α → EvalM β} (hx : Local x) (hf : ∀ a, Local (f a)) :
    Local (x >>= f) := by
  intro top rest rest'
  obtain ⟨r, top₁, hrun, hrun'⟩ := hx top rest rest'
  rw [run_bind, run_bind, hrun, hrun']
  cases r with
  | ok a => exact hf a top₁ rest rest'
  | error e => exact ⟨.error e, top₁, rfl, rfl⟩

/-- The answer of an action in a frame of its own is settled by the size of the frame. -/
theorem Local.inFrame {act : EvalM Value} (h : Local act) (size : Nat) :
    Frameless (EvalM.inFrame size act) := by
  refine ⟨(act ⟨[Frames.emptyFrame size]⟩).1, fun frames => ?_⟩
  obtain ⟨r, top', hrun, hrun'⟩ := h (Frames.emptyFrame size) frames.stack []
  have hpush : frames.push size = ⟨Frames.emptyFrame size :: frames.stack⟩ := rfl
  rw [EvalM.inFrame, hpush, hrun, hrun']
  rfl

theorem local_compositional :
    Compositional (σ := Frames) (τ := Frames) fun act _ => Local act where
  pure a := (frameless_ofResult (.ok a)).local
  throw e := (frameless_ofResult (.error e)).local
  bind hx hf := Local.bind hx hf
  load slot := fun top _ _ => ⟨(Frames.mk [top]).load slot, top, rfl, rfl⟩
  store slot value := fun top _ _ => ⟨.ok (), Frames.write top slot value, rfl, rfl⟩
  inFrame hx size := (Local.inFrame hx size).local

theorem BoundNode.eval_local (n : BoundNode) : Local n.eval := local_compositional.eval n

/-- What a call gives depends on the method, the receiver and the arguments alone. -/
theorem Method.invoke_frameless (method : Method) (receiver : Option Value)
    (arguments : List Value) : Frameless (method.invoke receiver arguments) := by
  cases method with
  | native head run =>
    unfold Method.invoke
    exact frameless_ofResult _
  | defined head slots size body =>
    unfold Method.invoke
    have hbody := (local_compositional.storeArguments slots arguments).bind fun _ => body.eval_local
    exact hbody.inFrame size

theorem CastKind.apply_frameless (kind : CastKind) (value : Value) :
    Frameless (kind.apply value) := by
  unfold CastKind.apply
  cases kind with
  | widening target | narrowing target => exact frameless_ofResult _
  | method method => exact method.invoke_frameless none [value]
  | _ => exact frameless_ofResult (.ok value)

/-- What a conversion gives depends on the value alone. -/
theorem Cast.apply_frameless (cast : Cast) (value : Value) : Frameless (cast.apply value) := by
  obtain ⟨source, target, kind, implicit, distance⟩ := cast
  unfold Cast.apply
  split
  · exact frameless_ofResult (.error _)
  · exact kind.apply_frameless value

end RuleExpr

import RuleExpr.Proofs.Evaluation.Frames

/-!
# Recorded Evaluation

Evaluation on a machine that writes down every access to a slot of the topmost frame: what a
declaration or a loop stores, and what a variable loads.  Calls and conversions run in frames of
their own and leave no trace.  Apart from the record it is evaluation in frames, with the same
result and the same frames.
-/

namespace RuleExpr

open Fallible

/-- An access to a slot of the topmost frame: a value stored, or what was answered to a load. -/
inductive Access where
  | store (slot : Nat) (value : Value)
  | load (slot : Nat) (answer : Except EvalError Value)

/-- The frames of an evaluation, and the accesses to them in the order in which they happened. -/
structure Recorded where
  frames : Frames
  log : List Access

/-- A fresh frame of `size` slots with nothing recorded. -/
def Recorded.single (size : Nat) : Recorded := ⟨.single size, []⟩

abbrev RecordM := Fallible Recorded

namespace RecordM

/-- Runs an action on the frames without recording anything. -/
def silent {α : Type} (act : EvalM α) : RecordM α := fun st =>
  ((act st.frames).1, { st with frames := (act st.frames).2 })

def load (slot : Nat) : RecordM Value := fun st =>
  (st.frames.load slot, { st with log := st.log ++ [.load slot (st.frames.load slot)] })

def store (slot : Nat) (value : Value) : RecordM Unit := fun st =>
  match st.frames.store slot value with
  | .ok frames => (.ok (), ⟨frames, st.log ++ [.store slot value]⟩)
  | .error e => (.error e, st)

/-- What is recorded in a new frame is forgotten with it. -/
def inFrame (size : Nat) (act : RecordM Value) : RecordM Value := fun st =>
  silent (EvalM.inFrame size fun frames =>
    ((act ⟨frames, []⟩).1, (act ⟨frames, []⟩).2.frames)) st

end RecordM

instance : Machine Recorded := ⟨RecordM.load, RecordM.store, RecordM.inFrame⟩

/-- A recorded action gives what the action gives, and adds to the record. -/
def Records {α : Type} (recorded : RecordM α) (act : EvalM α) : Prop :=
  ∀ st, ∃ new, recorded st = ((act st.frames).1, ⟨(act st.frames).2, st.log ++ new⟩)

namespace Records

variable {α β : Type}

theorem silent (act : EvalM α) : Records (RecordM.silent act) act := by
  intro st
  exact ⟨[], by rw [List.append_nil]; rfl⟩

theorem bind {x : RecordM α} {y : EvalM α} {f : α → RecordM β} {g : α → EvalM β}
    (hx : Records x y) (hf : ∀ a, Records (f a) (g a)) : Records (x >>= f) (y >>= g) := by
  intro st
  obtain ⟨new, hnew⟩ := hx st
  rw [run_bind, run_bind, hnew]
  match hy : y st.frames with
  | (.error e, frames) => exact ⟨new, rfl⟩
  | (.ok a, frames) =>
    obtain ⟨more, hmore⟩ := hf a ⟨frames, st.log ++ new⟩
    exact ⟨new ++ more, by rw [← List.append_assoc]; exact hmore⟩

theorem store (slot : Nat) (value : Value) :
    Records (RecordM.store slot value) (EvalM.store slot value) := by
  intro st
  unfold RecordM.store EvalM.store
  match hstore : st.frames.store slot value with
  | .ok frames => exact ⟨[.store slot value], rfl⟩
  | .error e => exact ⟨[], by rw [List.append_nil]⟩

/-- An action that is recorded in a frame of its own records nothing outside. -/
theorem inFrame_eq_silent {x : RecordM Value} {y : EvalM Value} (h : Records x y) (size : Nat) :
    RecordM.inFrame size x = RecordM.silent (EvalM.inFrame size y) := by
  have hframes : (fun frames => ((x ⟨frames, []⟩).1, (x ⟨frames, []⟩).2.frames)) = y := by
    funext frames
    obtain ⟨new, hnew⟩ := h ⟨frames, []⟩
    rw [hnew]
    rfl
  unfold RecordM.inFrame
  rw [hframes]

end Records

theorem records_compositional : Compositional (σ := Recorded) (τ := Frames) Records where
  pure a := .silent (pure a)
  throw e := .silent (throw e)
  bind hx hf := hx.bind hf
  load slot := fun st => ⟨[.load slot (st.frames.load slot)], rfl⟩
  store slot value := .store slot value
  inFrame hx size := by
    change Records (RecordM.inFrame size _) (EvalM.inFrame size _)
    rw [hx.inFrame_eq_silent]
    exact .silent _

/-- A recorded evaluation in a fresh frame gives what evaluation gives. -/
theorem BoundNode.eval_recorded (n : BoundNode) (size : Nat) :
    (n.eval (Recorded.single size)).1 = n.evaluate size := by
  obtain ⟨new, hnew⟩ := records_compositional.eval n (.single size)
  rw [hnew]
  rfl

/-- Calls leave no trace. -/
theorem Method.invoke_eq_silent (method : Method) (receiver : Option Value)
    (arguments : List Value) :
    (method.invoke receiver arguments : RecordM Value) =
      RecordM.silent (method.invoke receiver arguments) := by
  cases method with
  | native head run =>
    unfold Method.invoke
    rfl
  | defined head slots size body =>
    unfold Method.invoke
    have hrecords := records_compositional
    have hbody := hrecords.bind (hrecords.storeArguments slots arguments) fun _ =>
      hrecords.eval body
    exact hbody.inFrame_eq_silent size

/-- Neither do conversions. -/
theorem CastKind.apply_eq_silent (kind : CastKind) (value : Value) :
    (kind.apply value : RecordM Value) = RecordM.silent (kind.apply value) := by
  unfold CastKind.apply
  cases kind with
  | method method => exact method.invoke_eq_silent none [value]
  | _ => rfl

theorem Cast.apply_eq_silent (cast : Cast) (value : Value) :
    (cast.apply value : RecordM Value) = RecordM.silent (cast.apply value) := by
  obtain ⟨source, target, kind, implicit, distance⟩ := cast
  unfold Cast.apply
  split
  · rfl
  · exact kind.apply_eq_silent value

end RuleExpr

import RuleExpr.Proofs.Evaluation.Run

/-!
# Properties of Evaluation That Follow From Its Parts

Evaluation loads and stores, runs methods in frames, and puts such actions one after the other.
`Fallible.Compositional Φ` says of a relation `Φ` between the actions of two machines that it holds
of these parts and carries over to actions that are put together.  Such a relation holds between the
two evaluations of a tree.  It may also leave one of the machines out, and be a property of the
evaluations on the other.
-/

namespace RuleExpr

namespace Fallible

variable {σ τ : Type} [Machine σ] [Machine τ]

/-- A relation between actions that holds of the parts of an evaluation and carries over to actions
one after the other and in frames of their own. -/
structure Compositional (Φ : ∀ {α : Type}, Fallible σ α → Fallible τ α → Prop) : Prop where
  pure {α : Type} (a : α) : Φ (Pure.pure a) (Pure.pure a)
  throw {α : Type} (e : EvalError) :
    Φ (MonadExcept.throw e : Fallible σ α) (MonadExcept.throw e : Fallible τ α)
  bind {α β : Type} {x : Fallible σ α} {y : Fallible τ α} {f : α → Fallible σ β}
    {g : α → Fallible τ β} (hx : Φ x y) (hf : ∀ a, Φ (f a) (g a)) : Φ (x >>= f) (y >>= g)
  load (slot : Nat) : Φ (Machine.load slot) (Machine.load slot)
  store (slot : Nat) (value : Value) : Φ (Machine.store slot value) (Machine.store slot value)
  inFrame {x : Fallible σ Value} {y : Fallible τ Value} (hx : Φ x y) (size : Nat) :
    Φ (Machine.inFrame size x) (Machine.inFrame size y)

namespace Compositional

variable {Φ : ∀ {α : Type}, Fallible σ α → Fallible τ α → Prop}

section Parts

variable (h : Compositional Φ) {α β : Type} {x x' : Fallible σ α} {y y' : Fallible τ α}

include h

theorem map (f : α → β) (hx : Φ x y) : Φ (f <$> x) (f <$> y) := by
  rw [map_eq_pure_bind, map_eq_pure_bind]
  exact h.bind hx fun a => h.pure (f a)

omit [Machine σ] [Machine τ] h in
theorem ite {c : Prop} [Decidable c] (hx : Φ x y) (hx' : Φ x' y') :
    Φ (if c then x else x') (if c then y else y') := by
  split
  · exact hx
  · exact hx'

theorem ofResult (r : Except EvalError α) :
    Φ (Fallible.ofResult r : Fallible σ α) (Fallible.ofResult r) := by
  cases r with
  | ok a => exact h.pure a
  | error e => exact h.throw e

/-- Arguments are stored one after the other, each in the slot of its parameter. -/
theorem storeArguments (slots : List (Option Nat)) (arguments : List Value) :
    Φ (Machine.storeArguments slots arguments) (Machine.storeArguments slots arguments) := by
  fun_induction Machine.storeArguments (σ := σ) slots arguments with
  | case1 slot slots argument arguments ih => exact h.bind (h.store slot argument) fun _ => ih
  | case2 slots argument arguments ih => exact ih
  | case3 slots arguments hsome hnone =>
    rw [Machine.storeArguments]
    · exact h.pure ()
    · exact hsome
    · exact hnone

/-- Loops over related steps are related. -/
theorem run {step : Loop.Step (Fallible σ)} {step' : Loop.Step (Fallible τ)}
    (hstep : ∀ value, Φ (step value) (step' value)) (kind : AggregateKind)
    (elements : List Value) : Φ (Loop.run kind step elements) (Loop.run kind step' elements) := by
  cases kind with
  | selectAll =>
    refine h.map _ ?_
    induction elements with
    | nil => exact h.pure _
    | cons value rest ih => exact h.bind (hstep value) fun _ => h.bind ih fun _ => h.pure _
  | selectFirst =>
    change Φ (Loop.selectFirst step elements) (Loop.selectFirst step' elements)
    induction elements with
    | nil => exact h.pure _
    | cons value rest ih => exact h.bind (hstep value) fun _ => ite (h.pure _) ih
  | collect =>
    refine h.map _ ?_
    induction elements with
    | nil => exact h.pure _
    | cons value rest ih => exact h.bind (hstep value) fun _ => h.bind ih fun _ => h.pure _

end Parts

mutual

/-- What holds of the parts of an evaluation holds of the whole. -/
theorem eval (h : Compositional Φ) : ∀ n : BoundNode, Φ n.eval n.eval
  | ⟨shape, t, _⟩ => by
    unfold BoundNode.eval
    exact h.evalShape t shape

/-- Variables, declarations, loops, calls and casts turn to the machine, and all other nodes
combine. -/
theorem evalShape (h : Compositional Φ) (t : Ty) :
    ∀ shape : BoundShape, Φ (shape.eval t) (shape.eval t)
  | .literal _ | .moduleField _ => by
    unfold BoundShape.eval
    exact h.pure _
  | .localVar _ slot => by
    unfold BoundShape.eval
    exact h.load slot
  | .fieldAccess target _ => by
    unfold BoundShape.eval
    exact h.bind (h.eval target) fun _ => h.ofResult _
  | .arrayLength array => by
    unfold BoundShape.eval
    exact h.bind (h.evalArray array) fun _ => h.pure _
  | .arrayElement array index => by
    unfold BoundShape.eval
    refine h.bind (h.evalArray array) fun _ => ?_
    refine h.bind (h.eval index) fun _ => ?_
    exact h.bind (h.ofResult _) fun _ => h.ofResult _
  | .cast operand cast => by
    unfold BoundShape.eval
    exact h.bind (h.eval operand) fun value => h.apply cast value
  | .methodCall method none arguments => by
    unfold BoundShape.eval
    exact h.bind (h.evalAll arguments) fun values => h.invoke method none values
  | .methodCall method (some target) arguments => by
    unfold BoundShape.eval
    refine h.bind (h.eval target) fun receiver => ?_
    have hcall := h.bind (h.evalAll arguments) fun values => h.invoke method (some receiver) values
    exact ite (h.bind (h.throw _) fun _ => hcall) hcall
  | .constructor method arguments => by
    unfold BoundShape.eval
    exact h.bind (h.evalAll arguments) fun values => h.invoke method none values
  | .conditional condition yes none => by
    unfold BoundShape.eval
    exact h.bind (h.evalCondition condition) fun _ => ite (h.eval yes) (h.pure _)
  | .conditional condition yes (some no) => by
    unfold BoundShape.eval
    exact h.bind (h.evalCondition condition) fun _ => ite (h.eval yes) (h.eval no)
  | .and left right => by
    unfold BoundShape.eval
    exact h.bind (h.evalCondition left) fun _ => ite (h.map _ (h.evalCondition right)) (h.pure _)
  | .or left right => by
    unfold BoundShape.eval
    exact h.bind (h.evalCondition left) fun _ => ite (h.pure _) (h.map _ (h.evalCondition right))
  | .block statements => by
    unfold BoundShape.eval
    exact h.bind (h.evalAll statements) fun _ => h.pure _
  | .varDecl slot initial => by
    unfold BoundShape.eval
    refine h.bind (h.eval initial) fun value => ?_
    exact h.bind (h.store slot value) fun _ => h.pure _
  | .newArray _ size => by
    unfold BoundShape.eval
    refine h.bind (h.eval size) fun _ => ?_
    exact h.bind (h.ofResult _) fun _ => h.ofResult _
  | .arrayInit elements => by
    unfold BoundShape.eval
    exact h.map _ (h.evalAll elements)
  | .aggregate kind source slot none body => by
    unfold BoundShape.eval
    refine h.bind (h.evalArray source) fun _ => h.run (fun element => ?_) kind _
    refine h.bind (h.store slot element) fun _ => ?_
    exact h.bind (h.eval body) fun _ => h.pure _
  | .aggregate kind source slot (some cast) body => by
    unfold BoundShape.eval
    refine h.bind (h.evalArray source) fun _ => h.run (fun value => ?_) kind _
    refine h.bind (h.apply cast value) fun element => ?_
    refine h.bind (h.store slot element) fun _ => ?_
    exact h.bind (h.eval body) fun _ => h.pure _
  | .error _ => by
    unfold BoundShape.eval
    exact h.throw _

theorem evalArray (h : Compositional Φ) : ∀ n : BoundNode, Φ n.evalArray n.evalArray
  | ⟨shape, t, _⟩ => by
    unfold BoundNode.evalArray
    exact h.bind (h.evalShape t shape) fun _ => h.ofResult _

theorem evalCondition (h : Compositional Φ) : ∀ n : BoundNode, Φ n.evalCondition n.evalCondition
  | ⟨shape, t, _⟩ => by
    unfold BoundNode.evalCondition
    exact h.bind (h.evalShape t shape) fun _ => h.ofResult _

theorem evalAll (h : Compositional Φ) : ∀ ns : List BoundNode, Φ (evalAll ns) (evalAll ns)
  | [] => by
    unfold RuleExpr.evalAll
    exact h.pure _
  | n :: ns => by
    unfold RuleExpr.evalAll
    refine h.bind (h.eval n) fun _ => ?_
    exact h.bind (h.evalAll ns) fun _ => h.pure _

/-- A body runs in a frame of its own on the machine that calls the method. -/
theorem invoke (h : Compositional Φ) :
    ∀ (method : Method) (receiver : Option Value) (arguments : List Value),
      Φ (method.invoke receiver arguments) (method.invoke receiver arguments)
  | .native _ _, _, _ => by
    unfold Method.invoke
    exact h.ofResult _
  | .defined _ slots size body, _, arguments => by
    unfold Method.invoke
    exact h.inFrame (h.bind (h.storeArguments slots arguments) fun _ => h.eval body) size

theorem apply (h : Compositional Φ) :
    ∀ (cast : Cast) (value : Value), Φ (cast.apply value) (cast.apply value)
  | ⟨_, _, kind, _, _⟩, value => by
    unfold Cast.apply
    split
    · exact h.throw _
    · exact h.applyKind kind value

theorem applyKind (h : Compositional Φ) :
    ∀ (kind : CastKind) (value : Value), Φ (kind.apply value) (kind.apply value)
  | .identity, value | .nullToReference, value | .boxing, value | .unboxing, value
  | .upcast, value | .downcast, value => by
    unfold CastKind.apply
    exact h.pure value
  | .widening _, _ | .narrowing _, _ => by
    unfold CastKind.apply
    exact h.ofResult _
  | .method method, value => by
    unfold CastKind.apply
    exact h.invoke method none [value]

end

end Compositional

end Fallible

end RuleExpr

import RuleExpr.Proofs.Evaluation.Frames
import RuleExpr.Proofs.Soundness.Operators

/-!
# Evaluating Typed Nodes

What a node gives when its children give values of their types, one statement for every shape of
node.  `Yields` is the form that all of them have: from frames with some property, a value in some
set and frames with some property again, or an expected failure.  What the property of the frames
is does not matter here, and no statement mentions where the node came from.
-/

namespace RuleExpr

open Fallible

variable {d : Declarations} {O : Ty → Prop} {α β : Type} {I I₁ I' : Frames → Prop}
  {S S' : α → Prop} {T : β → Prop}

/-- From frames with `I` the action gives an answer in `S` and frames with `I'`, or an expected
failure. -/
def Yields (I : Frames → Prop) (act : EvalM α) (S : α → Prop) (I' : Frames → Prop) : Prop :=
  Triple I act (fun a frames => S a ∧ I' frames) fun e _ => e.isExpected

namespace Yields

theorem pure {a : α} (h : S a) : Yields I (Pure.pure a) S I :=
  Triple.pure fun _ hI => ⟨h, hI⟩

/-- An expected error keeps every promise. -/
theorem throw {e : EvalError} (h : e.isExpected) :
    Yields I (MonadExcept.throw e : EvalM α) S I' :=
  Triple.throw fun _ _ => h

theorem bind {x : EvalM α} {f : α → EvalM β} (hx : Yields I x S I₁)
    (hf : ∀ a, S a → Yields I₁ (f a) T I') : Yields I (x >>= f) T I' :=
  Triple.bind hx fun a frames hframes => hf a hframes.1 frames hframes.2

theorem map {x : EvalM α} {f : α → β} (hx : Yields I x S I') (hf : ∀ a, S a → T (f a)) :
    Yields I (f <$> x) T I' :=
  Triple.map (Triple.imp hx (fun _ hI => hI) fun a _ h => ⟨hf a h.1, h.2⟩)

theorem imp {x : EvalM α} (hx : Yields I x S I') (h : ∀ a, S a → S' a) : Yields I x S' I' :=
  Triple.imp hx (fun _ hI => hI) fun a _ hframes => ⟨h a hframes.1, hframes.2⟩

theorem frames {x : EvalM α} (hx : Yields I x S I') {J J' : Frames → Prop}
    (hI : ∀ frames, J frames → I frames) (hI' : ∀ frames, I' frames → J' frames) :
    Yields J x S J' :=
  Triple.imp hx hI fun _ frames h => ⟨h.1, hI' frames h.2⟩

theorem ite {c : Bool} {x y : EvalM α} (hx : Yields I x S I') (hy : Yields I y S I') :
    Yields I (if c then x else y) S I' :=
  Triple.ite (fun _ => hx) fun _ => hy

/-- What leaves the frames alone keeps all invariants of them. -/
theorem of_unchanging {x : EvalM α} (hx : Unchanging x) (h : ∀ frames, Lands S (x frames).1) :
    Yields I x S I := by
  intro frames hI
  have hsame := hx frames
  have hlands := h frames
  match hrun : x frames with
  | (.ok a, frames') =>
    rw [hrun] at hsame hlands
    obtain rfl : frames' = frames := hsame
    exact ⟨hlands, hI⟩
  | (.error e, frames') =>
    rw [hrun] at hlands
    exact hlands

theorem ofResult {r : Except EvalError α} (h : Lands S r) : Yields I (Fallible.ofResult r) S I :=
  of_unchanging (fun _ => rfl) fun _ => h

end Yields

/-- A node gives values of its type. -/
def BoundNode.Evaluates (d : Declarations) (I I' : Frames → Prop) (n : BoundNode) : Prop :=
  Yields I n.eval (Assignable d · n.ty) I'

namespace Value

variable {v : Value} {t component : Ty}

theorem expectArray_lands (ht : t.component? = some component) (hv : Assignable d v t) :
    Lands (fun elements => ∀ e ∈ elements, Assignable d e component) (v.expectArray t) := by
  rcases hv.null_or_array ht with rfl | ⟨elements, rfl, helements⟩
  · rfl
  · exact helements

theorem expectCondition_lands (hv : Assignable d v .boolean) :
    Lands (fun _ => True) v.expectCondition := by
  obtain ⟨b, rfl⟩ := hv.exists_bool
  trivial

theorem expectInt_lands (hv : Assignable d v .int) : Lands (fun _ => True) v.expectInt := by
  obtain ⟨i, rfl⟩ := hv.exists_int
  trivial

/-- A position out of bounds is an expected error. -/
theorem elementAt_lands {elements : List Value} (h : ∀ e ∈ elements, Assignable d e component)
    (position : Int) : Lands (Assignable d · component) (elementAt elements position) := by
  unfold elementAt
  split
  case h_1 value hvalue =>
    split at hvalue
    · exact h value (List.mem_of_getElem? hvalue)
    · cases hvalue
  case h_2 => rfl

/-- A new array holds default values of its component type. -/
theorem newArray_lands (ht : t.component? = some component) (size : Int) :
    Lands (Assignable d · t) (newArray component size) := by
  unfold newArray
  split
  · rfl
  · refine .array ht fun v hv => ?_
    rw [List.eq_of_mem_replicate hv]
    exact .defaultValue d component

/-- A field that is visible on the type of a value. -/
theorem readField_lands {name : String} {field : Field} (hd : Coherent d O) (ht : O t)
    (hfield : d.field? t name = some field) (hv : Assignable d v t) :
    Lands (Assignable d · field.ty) (v.readField t field.name) := by
  have hdeclared := hd.isDeclared_of_field ht hfield
  cases hv with
  | null => rfl
  | object _ hpresent hfields =>
    obtain ⟨w, hw⟩ := Option.isSome_iff_exists.1 (hpresent name field hfield)
    rw [readField, hw]
    exact hfields name field w hfield hw
  | string => cases hdeclared
  | bool ht | top ht => cases t <;> simp_all [Ty.isDeclared, Ty.isBooleanLike, Ty.isTop]
  | number _ ht => cases t <;> simp_all [Ty.isDeclared, Ty.holds, Ty.numericKind?]
  | array ht => cases t <;> simp_all [Ty.isDeclared, Ty.component?]

end Value

section Lists

variable {vs : List Value} {ts : List Ty} (h : List.Forall₂ (Assignable d) vs ts)

include h

theorem assignable_all {t : Ty} (ht : ∀ u ∈ ts, u = t) : ∀ v ∈ vs, Assignable d v t := by
  induction h with
  | nil => exact List.forall_mem_nil _
  | cons hv _ ih =>
    rw [List.forall_mem_cons] at ht
    exact List.forall_mem_cons.2 ⟨ht.1 ▸ hv, ih ht.2⟩

/-- The last value, or null where there is none. -/
theorem assignable_getLast :
    Assignable d (vs.getLast?.getD .null) (ts.getLast?.getD .void) := by
  induction h with
  | nil => exact .null rfl
  | cons hv hrest ih =>
    cases hrest with
    | nil => exact hv
    | cons => exact ih

end Lists

theorem BoundNode.evalArray_yields {n : BoundNode} {component : Ty}
    (hn : n.Evaluates d I I') (ht : n.ty.component? = some component) :
    Yields I n.evalArray (fun elements => ∀ e ∈ elements, Assignable d e component) I' := by
  obtain ⟨shape, t, span⟩ := n
  unfold evalArray
  exact Yields.bind hn fun v hv => .ofResult (Value.expectArray_lands ht hv)

theorem BoundNode.evalCondition_yields {n : BoundNode} (hn : n.Evaluates d I I')
    (ht : n.ty = .boolean) : Yields I n.evalCondition (fun _ => True) I' := by
  obtain ⟨shape, t, span⟩ := n
  obtain rfl : t = .boolean := ht
  unfold evalCondition
  exact Yields.bind hn fun v hv => .ofResult (Value.expectCondition_lands hv)

/-- Nodes that leave the property of the frames alone. -/
theorem evalAll_yields {ns : List BoundNode} (h : ∀ n ∈ ns, n.Evaluates d I I) :
    Yields I (evalAll ns) (fun vs => List.Forall₂ (Assignable d) vs (ns.map (·.ty))) I := by
  induction ns with
  | nil =>
    unfold evalAll
    exact .pure .nil
  | cons n ns ih =>
    rw [List.forall_mem_cons] at h
    unfold evalAll
    refine Yields.bind h.1 fun v hv => ?_
    refine Yields.bind (ih h.2) fun vs hvs => ?_
    exact .pure (.cons hv hvs)

/-! ## Nodes -/

section Nodes

variable {t : Ty} {span : Span}

theorem evaluates_of_shape {shape : BoundShape}
    (h : Yields I (shape.eval t) (Assignable d · t) I') :
    BoundNode.Evaluates d I I' ⟨shape, t, span⟩ := by
  rw [BoundNode.Evaluates, BoundNode.eval]
  exact h

theorem evaluates_literal {value : Value} (h : Assignable d value t) :
    BoundNode.Evaluates d I I ⟨.literal value, t, span⟩ := by
  refine evaluates_of_shape ?_
  unfold BoundShape.eval
  exact .pure h

/-- The invariant has to say what the slot of a variable holds. -/
theorem evaluates_localVar {name : String} {slot : Nat}
    (h : ∀ frames, I frames → ∃ v, frames.load slot = .ok v ∧ Assignable d v t) :
    BoundNode.Evaluates d I I ⟨.localVar name slot, t, span⟩ := by
  refine evaluates_of_shape ?_
  unfold BoundShape.eval
  change Yields I (EvalM.load slot) (Assignable d · t) I
  intro frames hI
  obtain ⟨v, hload, hv⟩ := h frames hI
  rw [EvalM.load, hload]
  exact ⟨hv, hI⟩

/-- A field reads its constant.  The one without a constant reads null, and is left out here. -/
theorem evaluates_moduleField {field : Field} {value : Value}
    (hvalue : field.constant = some value) (h : Assignable d value t) :
    BoundNode.Evaluates d I I ⟨.moduleField field, t, span⟩ := by
  refine evaluates_of_shape ?_
  unfold BoundShape.eval
  rw [hvalue]
  exact .pure h

theorem evaluates_fieldAccess {target : BoundNode} {name : String} {field : Field}
    (hd : Coherent d O) (ht : O target.ty) (hfield : d.field? target.ty name = some field)
    (htarget : target.Evaluates d I I') :
    BoundNode.Evaluates d I I' ⟨.fieldAccess target field.name, field.ty, span⟩ := by
  refine evaluates_of_shape ?_
  unfold BoundShape.eval
  exact Yields.bind htarget fun v hv => .ofResult (Value.readField_lands hd ht hfield hv)

theorem evaluates_arrayLength {array : BoundNode} (ht : array.ty.isArray)
    (harray : array.Evaluates d I I') :
    BoundNode.Evaluates d I I' ⟨.arrayLength array, .int, span⟩ := by
  obtain ⟨component, hcomponent⟩ : ∃ component, array.ty.component? = some component := by
    cases hty : array.ty with
    | array component => exact ⟨component, rfl⟩
    | _ =>
      rw [hty] at ht
      cases ht
  refine evaluates_of_shape ?_
  unfold BoundShape.eval
  exact Yields.bind (array.evalArray_yields harray hcomponent) fun _ _ => .pure (.number rfl rfl)

theorem evaluates_arrayElement {array index : BoundNode} (ht : array.ty.component? = some t)
    (hindex : index.ty = .int) (harray : array.Evaluates d I I₁)
    (hposition : index.Evaluates d I₁ I') :
    BoundNode.Evaluates d I I' ⟨.arrayElement array index, t, span⟩ := by
  rw [BoundNode.Evaluates, hindex] at hposition
  refine evaluates_of_shape ?_
  unfold BoundShape.eval
  refine Yields.bind (array.evalArray_yields harray ht) fun elements helements => ?_
  refine Yields.bind hposition fun v hv => ?_
  refine Yields.bind (.ofResult (Value.expectInt_lands hv)) fun position _ => ?_
  exact .ofResult (Value.elementAt_lands helements position)

theorem evaluates_cast {operand : BoundNode} {cast : Cast}
    (hcast : ∀ v (frames : Frames), Assignable d v operand.ty →
      Lands (Assignable d · t) (cast.apply v frames).1)
    (hoperand : operand.Evaluates d I I') :
    BoundNode.Evaluates d I I' ⟨.cast operand cast, t, span⟩ := by
  refine evaluates_of_shape ?_
  unfold BoundShape.eval
  exact Yields.bind hoperand fun v hv =>
    .of_unchanging (cast.apply_unchanging v) fun frames => hcast v frames hv

section Calls

variable {m : Method} {arguments : List BoundNode}

theorem evaluates_arguments {receiver? : Option Ty} {receiver : Option Value}
    (hm : m.Preserves d receiver?) (hreceiver : ReceiverFits d receiver? receiver)
    (hparams : arguments.map (·.ty) = m.params) (harguments : ∀ n ∈ arguments, n.Evaluates d I I) :
    Yields I (do let values ← evalAll arguments; m.invoke receiver values)
      (Assignable d · m.returns) I := by
  refine Yields.bind (evalAll_yields harguments) fun values hvalues => ?_
  refine .of_unchanging (m.invoke_unchanging receiver values) fun frames => ?_
  exact hm receiver values frames hreceiver (hparams ▸ hvalues)

theorem evaluates_call (hm : m.Preserves d none) (hparams : arguments.map (·.ty) = m.params)
    (harguments : ∀ n ∈ arguments, n.Evaluates d I I) :
    BoundNode.Evaluates d I I ⟨.methodCall m none arguments, m.returns, span⟩ := by
  refine evaluates_of_shape ?_
  unfold BoundShape.eval
  exact evaluates_arguments hm rfl hparams harguments

theorem evaluates_constructor (hm : m.Preserves d none)
    (hparams : arguments.map (·.ty) = m.params) (harguments : ∀ n ∈ arguments, n.Evaluates d I I) :
    BoundNode.Evaluates d I I ⟨.constructor m arguments, m.returns, span⟩ := by
  refine evaluates_of_shape ?_
  unfold BoundShape.eval
  exact evaluates_arguments hm rfl hparams harguments

theorem evaluates_memberCall {target : BoundNode} (hm : m.Preserves d (some target.ty))
    (hparams : arguments.map (·.ty) = m.params) (htarget : target.Evaluates d I I)
    (harguments : ∀ n ∈ arguments, n.Evaluates d I I) :
    BoundNode.Evaluates d I I ⟨.methodCall m (some target) arguments, m.returns, span⟩ := by
  refine evaluates_of_shape ?_
  unfold BoundShape.eval
  refine Yields.bind htarget fun v hv => ?_
  cases hnull : v.isNull with
  | true => exact .throw rfl
  | false => exact evaluates_arguments hm ⟨v, rfl, hnull, hv⟩ hparams harguments

end Calls

/-- Either branch starts from the frames that the condition leaves. -/
theorem evaluates_conditional {condition yes : BoundNode} {no? : Option BoundNode}
    (ht : condition.ty = .boolean) (hcondition : condition.Evaluates d I I₁)
    (hbranches : ∀ branch ∈ yes :: no?.toList, Yields I₁ branch.eval (Assignable d · t) I₁) :
    BoundNode.Evaluates d I I₁ ⟨.conditional condition yes no?, t, span⟩ := by
  rw [List.forall_mem_cons] at hbranches
  refine evaluates_of_shape ?_
  cases no? with
  | none =>
    unfold BoundShape.eval
    refine Yields.bind (condition.evalCondition_yields hcondition ht) fun _ _ => ?_
    exact .ite hbranches.1 (.pure (.defaultValue d t))
  | some no =>
    unfold BoundShape.eval
    refine Yields.bind (condition.evalCondition_yields hcondition ht) fun _ _ => ?_
    exact .ite hbranches.1 (hbranches.2 no List.mem_cons_self)

section Logic

variable {left right : BoundNode} (hleft : left.ty = .boolean) (hright : right.ty = .boolean)
  (hfirst : left.Evaluates d I I₁) (hsecond : right.Evaluates d I₁ I₁)

include hleft hright hfirst hsecond

/-- The second operand may be left out, so that nothing may depend on what it stores. -/
theorem evaluates_and : BoundNode.Evaluates d I I₁ ⟨.and left right, .boolean, span⟩ := by
  refine evaluates_of_shape ?_
  unfold BoundShape.eval
  refine Yields.bind (left.evalCondition_yields hfirst hleft) fun _ _ => ?_
  exact .ite (.map (right.evalCondition_yields hsecond hright) fun _ _ => .bool rfl)
    (.pure (.bool rfl))

theorem evaluates_or : BoundNode.Evaluates d I I₁ ⟨.or left right, .boolean, span⟩ := by
  refine evaluates_of_shape ?_
  unfold BoundShape.eval
  refine Yields.bind (left.evalCondition_yields hfirst hleft) fun _ _ => ?_
  exact .ite (.pure (.bool rfl))
    (.map (right.evalCondition_yields hsecond hright) fun _ _ => .bool rfl)

end Logic

theorem evaluates_newArray {component : Ty} {size : BoundNode}
    (ht : t.component? = some component) (hint : size.ty = .int)
    (hsize : size.Evaluates d I I') :
    BoundNode.Evaluates d I I' ⟨.newArray component size, t, span⟩ := by
  rw [BoundNode.Evaluates, hint] at hsize
  refine evaluates_of_shape ?_
  unfold BoundShape.eval
  refine Yields.bind hsize fun v hv => ?_
  refine Yields.bind (.ofResult (Value.expectInt_lands hv)) fun length _ => ?_
  exact .ofResult (Value.newArray_lands ht length)

theorem evaluates_arrayInit {component : Ty} {elements : List BoundNode}
    (ht : t.component? = some component) (htypes : ∀ n ∈ elements, n.ty = component)
    (helements : ∀ n ∈ elements, n.Evaluates d I I) :
    BoundNode.Evaluates d I I ⟨.arrayInit elements, t, span⟩ := by
  refine evaluates_of_shape ?_
  unfold BoundShape.eval
  refine Yields.map (evalAll_yields helements) fun vs hvs => .array ht ?_
  exact assignable_all hvs (List.forall_mem_map.2 htypes)

theorem evaluates_block {statements : List BoundNode}
    (h : Yields I (evalAll statements)
      (fun vs => List.Forall₂ (Assignable d) vs (statements.map (·.ty))) I') :
    BoundNode.Evaluates d I I'
      ⟨.block statements, (statements.getLast?.map (·.ty)).getD .void, span⟩ := by
  refine evaluates_of_shape ?_
  unfold BoundShape.eval
  rw [← List.getLast?_map]
  exact Yields.bind h fun vs hvs => .pure (assignable_getLast hvs)

/-- A store leads to the frames that the invariant behind it describes. -/
theorem store_yields {slot : Nat} {v : Value}
    (h : ∀ frames, I frames → ∃ frames', frames.store slot v = .ok frames' ∧ I' frames') :
    Yields I (EvalM.store slot v) (fun _ => True) I' := by
  intro frames hI
  obtain ⟨frames', hstore, hI'⟩ := h frames hI
  rw [EvalM.store, hstore]
  exact ⟨trivial, hI'⟩

theorem evaluates_varDecl {slot : Nat} {initial : BoundNode} (ht : initial.ty = t)
    (hinitial : initial.Evaluates d I I₁)
    (hstore : ∀ v, Assignable d v t → ∀ frames, I₁ frames →
      ∃ frames', frames.store slot v = .ok frames' ∧ I' frames') :
    BoundNode.Evaluates d I I' ⟨.varDecl slot initial, t, span⟩ := by
  rw [BoundNode.Evaluates, ht] at hinitial
  refine evaluates_of_shape ?_
  unfold BoundShape.eval
  refine Yields.bind hinitial fun v hv => ?_
  exact Yields.bind (store_yields (hstore v hv)) fun _ _ => .pure hv

section Loops

variable {kind : AggregateKind} {source body : BoundNode} {slot : Nat} {element loop : Ty}
  {I₂ I₃ : Frames → Prop}

/-- One round of a loop, with the element as the variable holds it. -/
theorem round_yields {v : Value} (hv : Assignable d v loop)
    (hstore : ∀ v, Assignable d v loop → ∀ frames, I₁ frames →
      ∃ frames', frames.store slot v = .ok frames' ∧ I₂ frames')
    (hbody : body.Evaluates d I₂ I₃) (hback : ∀ frames, I₃ frames → I₁ frames) :
    Yields I₁ (do EvalM.store slot v; let outcome ← body.eval; pure (v, outcome))
      (fun r => Assignable d r.1 loop ∧ Assignable d r.2 body.ty) I₁ := by
  refine Yields.bind (store_yields (hstore v hv)) fun _ _ => ?_
  refine Yields.frames (Yields.bind hbody fun outcome houtcome => ?_) (fun _ h => h) hback
  exact .pure ⟨hv, houtcome⟩

/-- Every round of a loop leads back to the frames it began with. -/
theorem evaluates_aggregate {cast? : Option Cast} (hsource : source.Evaluates d I I₁)
    (helement : source.ty.component? = some element)
    (hsame : cast? = none → element = loop)
    (hcast : ∀ cast ∈ cast?, ∀ v (frames : Frames), Assignable d v element →
      Lands (Assignable d · loop) (cast.apply v frames).1)
    (hstore : ∀ v, Assignable d v loop → ∀ frames, I₁ frames →
      ∃ frames', frames.store slot v = .ok frames' ∧ I₂ frames')
    (hbody : body.Evaluates d I₂ I₃) (hback : ∀ frames, I₃ frames → I₁ frames)
    (ht : ∀ v, Loop.Gives kind (Assignable d · loop) (Assignable d · body.ty) v →
      Assignable d v t) :
    BoundNode.Evaluates d I I₁ ⟨.aggregate kind source slot cast? body, t, span⟩ := by
  refine evaluates_of_shape ?_
  have helements := source.evalArray_yields hsource helement
  cases cast? with
  | none =>
    obtain rfl := hsame rfl
    unfold BoundShape.eval
    refine Yields.bind helements fun elements helements => ?_
    refine Yields.imp (Loop.run_triple kind fun v hv => ?_) ht
    exact round_yields (helements v hv) hstore hbody hback
  | some cast =>
    unfold BoundShape.eval
    refine Yields.bind helements fun elements helements => ?_
    refine Yields.imp (Loop.run_triple kind fun v hv => ?_) ht
    have happly := hcast cast rfl v
    refine Yields.bind (.of_unchanging (cast.apply_unchanging v)
      fun frames => happly frames (helements v hv)) fun w hw => ?_
    exact round_yields hw hstore hbody hback

end Loops

end Nodes

end RuleExpr

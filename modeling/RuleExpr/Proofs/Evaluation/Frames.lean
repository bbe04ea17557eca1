import RuleExpr.Proofs.Evaluation.Locality
import RuleExpr.Proofs.Evaluation.Nodes

/-!
# Frames of an Evaluation

A method runs in a frame of its own, so calling one, or converting a value by one, leaves all frames
of the caller as they were.  Everything else that a tree does to its frame is done by the loads and
stores of its nodes.  So what all of these preserve is preserved by the evaluation, and an
evaluation fails as they do, as the methods that it calls do, or in a way that has nothing to do
with frames.
-/

namespace RuleExpr

open Fallible

namespace Frames

variable {frames frames' : Frames} {slot other : Nat} {value : Value}

/-- A store behind the end of a frame fills the gap with null. -/
theorem getElem?_write (frame : Frame) (slot other : Nat) (value : Value) :
    (write frame slot value)[other]? =
      if other = slot then some value
      else if other < frame.length then frame[other]?
      else if other < slot then some .null else none := by
  have hlength : (frame ++ emptyFrame (slot + 1 - frame.length)).length =
      max frame.length (slot + 1) := by
    simp only [List.length_append, emptyFrame, List.length_replicate]
    omega
  rw [write, List.getElem?_set, hlength]
  split
  case isTrue hslot =>
    subst hslot
    rw [if_pos rfl, if_pos (by omega)]
  case isFalse hslot =>
    rw [if_neg (Ne.symm hslot)]
    split
    case isTrue hlt => rw [List.getElem?_append_left hlt]
    case isFalse hge =>
      rw [List.getElem?_append_right (by omega), emptyFrame, List.getElem?_replicate]
      congr 1
      exact propext (by omega)

theorem load_eq_ok (h : frames.load slot = .ok value) :
    ∃ top rest, frames.stack = top :: rest ∧ top[slot]? = some value := by
  unfold load at h
  split at h
  · cases h
  case h_2 top rest hstack =>
    split at h
    case h_1 found hfound =>
      cases h
      exact ⟨top, rest, hstack, hfound⟩
    case h_2 => cases h

theorem store_eq_ok (h : frames.store slot value = .ok frames') :
    ∃ top rest, frames.stack = top :: rest ∧ frames'.stack = write top slot value :: rest := by
  unfold store at h
  split at h
  · cases h
  case h_2 top rest hstack =>
    cases h
    exact ⟨top, rest, hstack, rfl⟩

theorem load_store_same (h : frames.store slot value = .ok frames') :
    frames'.load slot = .ok value := by
  obtain ⟨top, rest, -, hstack⟩ := store_eq_ok h
  rw [load, hstack]
  dsimp only
  rw [getElem?_write, if_pos rfl]

/-- A store leaves the other slots what they hold. -/
theorem load_store_other (h : frames.store slot value = .ok frames') (hne : other ≠ slot)
    {held : Value} (hload : frames.load other = .ok held) : frames'.load other = .ok held := by
  obtain ⟨top, rest, hbefore, hafter⟩ := store_eq_ok h
  obtain ⟨top', rest', hbefore', hheld⟩ := load_eq_ok hload
  cases hbefore.symm.trans hbefore'
  have hlt : other < top.length := by
    rw [List.getElem?_eq_some_iff] at hheld
    exact hheld.1
  rw [load, hafter]
  dsimp only
  rw [getElem?_write, if_neg hne, if_pos hlt, hheld]

end Frames

/-- Failures to reach a slot. -/
def EvalError.aboutFrames : EvalError → Bool
  | slotOutOfRange _ | noFrame => true
  | _ => false

/-- A result that is no failure to reach a slot. -/
def Ordinary {α : Type} (r : Except EvalError α) : Prop :=
  ∀ e, r = .error e → e.aboutFrames = false

namespace Ordinary

variable {α β : Type}

theorem ok (a : α) : Ordinary (.ok a) := nofun

theorem error {e : EvalError} (h : e.aboutFrames = false) :
    Ordinary (.error e : Except EvalError α) := by
  rintro _ ⟨⟩
  exact h

theorem bind {x : Except EvalError α} {f : α → Except EvalError β} (hx : Ordinary x)
    (hf : ∀ a, Ordinary (f a)) : Ordinary (x >>= f) := by
  cases x with
  | ok a => exact hf a
  | error e => exact error (hx e rfl)

theorem map {x : Except EvalError α} (f : α → β) (hx : Ordinary x) : Ordinary (f <$> x) := by
  cases x with
  | ok a => exact ok (f a)
  | error e => exact error (hx e rfl)

end Ordinary

namespace Value

theorem expectArray_ordinary (t : Ty) (v : Value) : Ordinary (v.expectArray t) := by
  cases v <;> first | exact .ok _ | exact .error rfl

theorem expectCondition_ordinary (v : Value) : Ordinary v.expectCondition := by
  cases v <;> first | exact .ok _ | exact .error rfl

theorem expectInt_ordinary (v : Value) : Ordinary v.expectInt := by
  cases v <;> first | exact .ok _ | exact .error rfl

theorem readField_ordinary (t : Ty) (name : String) (v : Value) :
    Ordinary (v.readField t name) := by
  cases v with
  | object typeName fields =>
    cases hget : Assoc.get? fields name with
    | some value => simpa only [readField, hget] using Ordinary.ok value
    | none => simpa only [readField, hget] using Ordinary.error rfl
  | _ => exact .error rfl

theorem elementAt_ordinary (elements : List Value) (position : Int) :
    Ordinary (elementAt elements position) := by
  unfold elementAt
  split
  · exact .ok _
  · exact .error rfl

theorem newArray_ordinary (element : Ty) (size : Int) : Ordinary (newArray element size) := by
  unfold newArray
  split
  · exact .error rfl
  · exact .ok _

theorem convert_ordinary (v : Value) (kind : NumericKind) : Ordinary (v.convert kind) := by
  unfold convert
  split
  · exact .ok _
  · split
    · exact .ok _
    · exact .error rfl

end Value

variable {α : Type} {I : Frames → Prop} {E : EvalError → Prop}

theorem ofResult_keeps (hE : ∀ e, e.aboutFrames = false → E e) {r : Except EvalError α}
    (h : Ordinary r) : Keeps I E (ofResult r) :=
  fun _ hI => ⟨hI, fun e he => hE e (h e he)⟩

theorem load_keeps (slot : Nat) : Keeps I (fun _ => True) (EvalM.load slot) :=
  fun _ hI => ⟨hI, fun _ _ => trivial⟩

/-- Arguments are kept to what the slots of the parameters allow. -/
theorem storeArguments_keeps {slots : List (Option Nat)}
    (h : ∀ slot, some slot ∈ slots → ∀ value, Keeps I E (EvalM.store slot value))
    (arguments : List Value) : Keeps I E (Machine.storeArguments slots arguments) := by
  fun_induction Machine.storeArguments (σ := Frames) slots arguments with
  | case1 slot slots argument arguments ih =>
    refine (h slot List.mem_cons_self argument).bind fun _ => ih fun other hmem => ?_
    exact h other (List.mem_cons_of_mem _ hmem)
  | case2 slots argument arguments ih =>
    exact ih fun other hmem => h other (List.mem_cons_of_mem _ hmem)
  | case3 => exact .pure _

/-- An action that leaves the frames as they are, whether or not it succeeds. -/
def Unchanging (act : EvalM α) : Prop := ∀ frames, (act frames).2 = frames

/-- An invariant of frames that do not change is kept. -/
theorem Unchanging.keeps {act : EvalM α} (h : Unchanging act)
    (hE : ∀ frames e, (act frames).1 = .error e → E e) : Keeps I E act := by
  intro frames hI
  rw [h frames]
  exact ⟨hI, hE frames⟩

theorem Frameless.unchanging {act : EvalM α} (h : Frameless act) : Unchanging act := by
  obtain ⟨r, hr⟩ := h
  intro frames
  rw [hr]

/-- A call leaves the frames of the caller as they were. -/
theorem Method.invoke_unchanging (method : Method) (receiver : Option Value)
    (arguments : List Value) : Unchanging (method.invoke receiver arguments) :=
  (method.invoke_frameless receiver arguments).unchanging

theorem Cast.apply_unchanging (cast : Cast) (value : Value) : Unchanging (cast.apply value) :=
  (cast.apply_frameless value).unchanging

/-- Calls of the method fail with errors in `E` only. -/
def Method.FailsIn (E : EvalError → Prop) (m : Method) : Prop :=
  ∀ receiver arguments (frames : Frames) e, (m.invoke receiver arguments frames).1 = .error e → E e

theorem CastKind.apply_fails (hE : ∀ e, e.aboutFrames = false → E e) {kind : CastKind}
    (hcall : ∀ m, kind = .method m → m.FailsIn E) (value : Value) (frames : Frames)
    (e : EvalError) (he : (kind.apply value frames).1 = .error e) : E e := by
  cases kind with
  | widening target | narrowing target =>
    unfold CastKind.apply at he
    exact hE e (value.convert_ordinary target e he)
  | method m =>
    unfold CastKind.apply at he
    exact hcall m rfl none [value] frames e he
  | _ =>
    unfold CastKind.apply at he
    cases he

/-- A cast fails where it finds null, where a number does not convert, and where its method does. -/
theorem Cast.apply_fails (hE : ∀ e, e.aboutFrames = false → E e) {cast : Cast}
    (hcall : ∀ m, cast.kind = .method m → m.FailsIn E) (value : Value) (frames : Frames)
    (e : EvalError) (he : (cast.apply value frames).1 = .error e) : E e := by
  obtain ⟨source, target, kind, implicit, distance⟩ := cast
  unfold Cast.apply at he
  split at he
  · cases he
    exact hE _ rfl
  · exact CastKind.apply_fails hE hcall value frames e he

/-- Whatever a node loads, stores and calls keeps to `I` and `E`. -/
structure BoundShape.Admits (I : Frames → Prop) (E : EvalError → Prop) (shape : BoundShape) :
    Prop where
  ordinary : ∀ e, e.aboutFrames = false → E e
  load : ∀ {name : String} {slot : Nat}, shape = .localVar name slot →
    Keeps I E (EvalM.load slot)
  store : ∀ slot ∈ shape.ownSlots, ∀ value, Keeps I E (EvalM.store slot value)
  call : ∀ {m : Method}, shape.Calls m → m.FailsIn E

mutual

/-- A tree keeps to whatever each of its nodes keeps to. -/
theorem BoundNode.eval_keeps : ∀ (n : BoundNode) {I : Frames → Prop} {E : EvalError → Prop},
    n.AllNodes (fun shape _ => shape.Admits I E) → Keeps I E n.eval
  | ⟨shape, t, span⟩, _, _, h => by
    unfold BoundNode.eval
    exact shape.eval_keeps t span h

theorem BoundShape.eval_keeps (t : Ty) (span : Span) :
    ∀ (shape : BoundShape) {I : Frames → Prop} {E : EvalError → Prop},
      BoundNode.AllNodes (fun shape _ => shape.Admits I E) ⟨shape, t, span⟩ →
      Keeps I E (shape.eval t)
  | .literal _, _, _, _ => by
    unfold BoundShape.eval
    exact .pure _
  | .localVar _ _, _, _, h => by
    unfold BoundShape.eval
    exact h.head.load rfl
  | .moduleField _, _, _, _ => by
    unfold BoundShape.eval
    exact .pure _
  | .fieldAccess target _, _, _, h => by
    unfold BoundShape.eval
    refine (target.eval_keeps (h.child List.mem_cons_self)).bind fun value => ?_
    exact ofResult_keeps h.head.ordinary (value.readField_ordinary _ _)
  | .arrayLength array, _, _, h => by
    unfold BoundShape.eval
    exact (array.evalArray_keeps (h.child List.mem_cons_self)).bind fun _ => .pure _
  | .arrayElement array index, _, _, h => by
    unfold BoundShape.eval
    refine (array.evalArray_keeps (h.child List.mem_cons_self)).bind fun _ => ?_
    refine (index.eval_keeps (h.child (List.mem_cons_of_mem _ List.mem_cons_self))).bind
      fun value => ?_
    refine (ofResult_keeps h.head.ordinary value.expectInt_ordinary).bind fun _ => ?_
    exact ofResult_keeps h.head.ordinary (Value.elementAt_ordinary _ _)
  | .cast operand cast, _, _, h => by
    unfold BoundShape.eval
    refine (operand.eval_keeps (h.child List.mem_cons_self)).bind fun value => ?_
    exact (cast.apply_unchanging value).keeps
      (Cast.apply_fails h.head.ordinary (fun m hm => h.head.call (.cast hm)) value)
  | .methodCall method none arguments, _, _, h => by
    unfold BoundShape.eval
    refine (evalAll_keeps arguments fun n hn => h.child hn).bind fun values => ?_
    exact (method.invoke_unchanging _ _).keeps (h.head.call .methodCall _ values)
  | .methodCall method (some target) arguments, _, _, h => by
    unfold BoundShape.eval
    refine (target.eval_keeps (h.child List.mem_cons_self)).bind fun receiver => ?_
    have hcall := (evalAll_keeps arguments fun n hn => h.child (List.mem_cons_of_mem _ hn)).bind
      fun values => (method.invoke_unchanging (some receiver) values).keeps
        (h.head.call .methodCall _ values)
    exact .ite ((Keeps.throw (h.head.ordinary _ rfl)).bind fun _ => hcall) hcall
  | .constructor method arguments, _, _, h => by
    unfold BoundShape.eval
    refine (evalAll_keeps arguments fun n hn => h.child hn).bind fun values => ?_
    exact (method.invoke_unchanging _ _).keeps (h.head.call .constructor _ values)
  | .conditional condition yes none, _, _, h => by
    unfold BoundShape.eval
    have hyes := yes.eval_keeps (h.child (List.mem_cons_of_mem _ List.mem_cons_self))
    exact (condition.evalCondition_keeps (h.child List.mem_cons_self)).bind fun _ =>
      .ite hyes (.pure _)
  | .conditional condition yes (some no), _, _, h => by
    unfold BoundShape.eval
    have hyes := yes.eval_keeps (h.child (List.mem_cons_of_mem _ List.mem_cons_self))
    have hno := no.eval_keeps
      (h.child (List.mem_cons_of_mem _ (List.mem_cons_of_mem _ List.mem_cons_self)))
    exact (condition.evalCondition_keeps (h.child List.mem_cons_self)).bind fun _ =>
      .ite hyes hno
  | .and left right, _, _, h => by
    unfold BoundShape.eval
    have hright := right.evalCondition_keeps (h.child (List.mem_cons_of_mem _ List.mem_cons_self))
    exact (left.evalCondition_keeps (h.child List.mem_cons_self)).bind fun _ =>
      .ite (.map _ hright) (.pure _)
  | .or left right, _, _, h => by
    unfold BoundShape.eval
    have hright := right.evalCondition_keeps (h.child (List.mem_cons_of_mem _ List.mem_cons_self))
    exact (left.evalCondition_keeps (h.child List.mem_cons_self)).bind fun _ =>
      .ite (.pure _) (.map _ hright)
  | .block statements, _, _, h => by
    unfold BoundShape.eval
    exact (evalAll_keeps statements fun n hn => h.child hn).bind fun _ => .pure _
  | .varDecl slot initial, _, _, h => by
    unfold BoundShape.eval
    refine (initial.eval_keeps (h.child List.mem_cons_self)).bind fun value => ?_
    exact (h.head.store slot List.mem_cons_self value).bind fun _ => .pure _
  | .newArray _ size, _, _, h => by
    unfold BoundShape.eval
    refine (size.eval_keeps (h.child List.mem_cons_self)).bind fun value => ?_
    refine (ofResult_keeps h.head.ordinary value.expectInt_ordinary).bind fun _ => ?_
    exact ofResult_keeps h.head.ordinary (Value.newArray_ordinary _ _)
  | .arrayInit elements, _, _, h => by
    unfold BoundShape.eval
    exact .map _ (evalAll_keeps elements fun n hn => h.child hn)
  | .aggregate kind source slot none body, _, _, h => by
    unfold BoundShape.eval
    have hbody := body.eval_keeps (h.child (List.mem_cons_of_mem _ List.mem_cons_self))
    refine (source.evalArray_keeps (h.child List.mem_cons_self)).bind fun _ =>
      Loop.run_keeps (fun element => ?_) _ _
    refine (h.head.store slot List.mem_cons_self element).bind fun _ => ?_
    exact hbody.bind fun _ => .pure _
  | .aggregate kind source slot (some cast) body, _, _, h => by
    unfold BoundShape.eval
    have hbody := body.eval_keeps (h.child (List.mem_cons_of_mem _ List.mem_cons_self))
    refine (source.evalArray_keeps (h.child List.mem_cons_self)).bind fun _ =>
      Loop.run_keeps (fun value => ?_) _ _
    have hcast := Cast.apply_fails h.head.ordinary fun m hm => h.head.call (.elementCast hm)
    refine ((cast.apply_unchanging value).keeps (hcast value)).bind fun element => ?_
    refine (h.head.store slot List.mem_cons_self element).bind fun _ => ?_
    exact hbody.bind fun _ => .pure _
  | .error _, _, _, h => by
    unfold BoundShape.eval
    exact .throw (h.head.ordinary _ rfl)

theorem BoundNode.evalArray_keeps :
    ∀ (n : BoundNode) {I : Frames → Prop} {E : EvalError → Prop},
      n.AllNodes (fun shape _ => shape.Admits I E) → Keeps I E n.evalArray
  | ⟨shape, t, span⟩, _, _, h => by
    unfold BoundNode.evalArray
    refine (shape.eval_keeps t span h).bind fun value => ?_
    exact ofResult_keeps h.head.ordinary (value.expectArray_ordinary t)

theorem BoundNode.evalCondition_keeps :
    ∀ (n : BoundNode) {I : Frames → Prop} {E : EvalError → Prop},
      n.AllNodes (fun shape _ => shape.Admits I E) → Keeps I E n.evalCondition
  | ⟨shape, t, span⟩, _, _, h => by
    unfold BoundNode.evalCondition
    refine (shape.eval_keeps t span h).bind fun value => ?_
    exact ofResult_keeps h.head.ordinary value.expectCondition_ordinary

theorem evalAll_keeps : ∀ (ns : List BoundNode) {I : Frames → Prop} {E : EvalError → Prop},
    (∀ n ∈ ns, n.AllNodes (fun shape _ => shape.Admits I E)) → Keeps I E (evalAll ns)
  | [], _, _, _ => by
    unfold evalAll
    exact .pure _
  | n :: ns, _, _, h => by
    unfold evalAll
    rw [List.forall_mem_cons] at h
    exact (n.eval_keeps h.1).bind fun _ => (evalAll_keeps ns h.2).bind fun _ => .pure _

end

end RuleExpr

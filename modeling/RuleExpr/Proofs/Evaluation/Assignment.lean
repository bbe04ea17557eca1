import RuleExpr.Proofs.Evaluation.Recording

/-!
# Assigned Slots

Which slots an evaluation has certainly stored to, read off the bound tree: a declaration stores to
its slot and a loop stores to its slot before the body runs, while the branches of a conditional,
the second operand of a logical operator and the body of a loop may not run at all.  A read is loose
when its slot is not certain to have been stored to.  Every load of a recorded evaluation answers
with the value stored last, and only a loose read can find that there is none; it gives the null
that the frame was filled with.
-/

namespace RuleExpr

open Fallible

/-- What an access stores to a slot. -/
def Access.stored? (slot : Nat) : Access → Option Value
  | .store other value => if other = slot then some value else none
  | .load _ _ => none

/-- The value stored last to a slot. -/
def lastStored (slot : Nat) (log : List Access) : Option Value :=
  log.reverse.findSome? (Access.stored? slot)

theorem lastStored_append_store (slot other : Nat) (log : List Access) (value : Value) :
    lastStored slot (log ++ [.store other value]) =
      if other = slot then some value else lastStored slot log := by
  unfold lastStored
  rw [List.reverse_append, List.reverse_singleton, List.singleton_append, List.findSome?_cons,
    Access.stored?]
  split
  case h_1 found hfound =>
    split at hfound
    case isTrue hslot => rw [if_pos hslot, hfound]
    case isFalse => cases hfound
  case h_2 hfound =>
    split at hfound
    case isTrue => cases hfound
    case isFalse hslot => rw [if_neg hslot]

theorem lastStored_append_load (slot other : Nat) (log : List Access)
    (answer : Except EvalError Value) :
    lastStored slot (log ++ [.load other answer]) = lastStored slot log := by
  unfold lastStored
  rw [List.reverse_append, List.reverse_singleton, List.singleton_append, List.findSome?_cons,
    Access.stored?]

mutual

/-- Slots that have been stored to once a node has given a value, if those of `A` were before. -/
def BoundNode.assigned (A : List Nat) : BoundNode → List Nat
  | ⟨shape, _, _⟩ => shape.assigned A

def BoundShape.assigned (A : List Nat) : BoundShape → List Nat
  | .literal _ | .localVar _ _ | .moduleField _ | .error _ => A
  | .fieldAccess target _ => target.assigned A
  | .arrayLength array => array.assigned A
  | .arrayElement array index => index.assigned (array.assigned A)
  | .cast operand _ => operand.assigned A
  | .methodCall _ none arguments => assignedAll A arguments
  | .methodCall _ (some target) arguments => assignedAll (target.assigned A) arguments
  | .constructor _ arguments => assignedAll A arguments
  | .conditional condition _ _ => condition.assigned A
  | .and left _ => left.assigned A
  | .or left _ => left.assigned A
  | .block statements => assignedAll A statements
  | .varDecl slot initial => slot :: initial.assigned A
  | .newArray _ size => size.assigned A
  | .arrayInit elements => assignedAll A elements
  | .aggregate _ source _ _ _ => source.assigned A

def assignedAll (A : List Nat) : List BoundNode → List Nat
  | [] => A
  | node :: rest => assignedAll (node.assigned A) rest

end

mutual

/-- Slots that a node may read before anything is stored to them, if those of `A` have been. -/
def BoundNode.looseReads (A : List Nat) : BoundNode → List Nat
  | ⟨shape, _, _⟩ => shape.looseReads A

def BoundShape.looseReads (A : List Nat) : BoundShape → List Nat
  | .literal _ | .moduleField _ | .error _ => []
  | .localVar _ slot => if slot ∈ A then [] else [slot]
  | .fieldAccess target _ => target.looseReads A
  | .arrayLength array => array.looseReads A
  | .arrayElement array index => array.looseReads A ++ index.looseReads (array.assigned A)
  | .cast operand _ => operand.looseReads A
  | .methodCall _ none arguments => looseReadsAll A arguments
  | .methodCall _ (some target) arguments =>
    target.looseReads A ++ looseReadsAll (target.assigned A) arguments
  | .constructor _ arguments => looseReadsAll A arguments
  | .conditional condition yes none =>
    condition.looseReads A ++ yes.looseReads (condition.assigned A)
  | .conditional condition yes (some no) =>
    condition.looseReads A ++
      (yes.looseReads (condition.assigned A) ++ no.looseReads (condition.assigned A))
  | .and left right => left.looseReads A ++ right.looseReads (left.assigned A)
  | .or left right => left.looseReads A ++ right.looseReads (left.assigned A)
  | .block statements => looseReadsAll A statements
  | .varDecl _ initial => initial.looseReads A
  | .newArray _ size => size.looseReads A
  | .arrayInit elements => looseReadsAll A elements
  | .aggregate _ source slot _ body =>
    source.looseReads A ++ body.looseReads (slot :: source.assigned A)

def looseReadsAll (A : List Nat) : List BoundNode → List Nat
  | [] => []
  | node :: rest => node.looseReads A ++ looseReadsAll (node.assigned A) rest

end

theorem BoundNode.assigned_eq (n : BoundNode) (A : List Nat) :
    n.assigned A = n.shape.assigned A := by
  obtain ⟨shape, t, span⟩ := n
  rw [BoundNode.assigned]

theorem BoundNode.looseReads_eq (n : BoundNode) (A : List Nat) :
    n.looseReads A = n.shape.looseReads A := by
  obtain ⟨shape, t, span⟩ := n
  rw [BoundNode.looseReads]

theorem BoundShape.looseReads_conditional (condition yes : BoundNode) (no? : Option BoundNode)
    (A : List Nat) :
    (conditional condition yes no?).looseReads A = condition.looseReads A ++
      (yes :: no?.toList).flatMap (·.looseReads (condition.assigned A)) := by
  cases no? <;> simp [looseReads]

theorem mem_looseReadsAll {ns : List BoundNode} {A : List Nat} {slot : Nat}
    (h : slot ∈ looseReadsAll A ns) : ∃ n ∈ ns, ∃ B, slot ∈ n.looseReads B := by
  induction ns generalizing A with
  | nil => simp [looseReadsAll] at h
  | cons n ns ih =>
    rw [looseReadsAll, List.mem_append] at h
    rcases h with h | h
    · exact ⟨n, List.mem_cons_self, A, h⟩
    · obtain ⟨m, hm, B, hB⟩ := ih h
      exact ⟨m, List.mem_cons_of_mem _ hm, B, hB⟩

/-- A loose read is the node itself or stands below it. -/
theorem BoundNode.mem_looseReads {n : BoundNode} {A : List Nat} {slot : Nat}
    (h : slot ∈ n.looseReads A) :
    (∃ name, n.shape = .localVar name slot) ∨ ∃ c ∈ n.children, ∃ B, slot ∈ c.looseReads B := by
  obtain ⟨shape, t, span⟩ := n
  rw [looseReads_eq] at h
  cases shape with
  | literal | moduleField | error => simp [BoundShape.looseReads] at h
  | localVar name other =>
    rw [BoundShape.looseReads] at h
    split at h
    · cases h
    · rw [List.mem_singleton.1 h]
      exact .inl ⟨name, rfl⟩
  | fieldAccess | arrayLength | cast | varDecl | newArray =>
    rw [BoundShape.looseReads] at h
    exact .inr ⟨_, List.mem_singleton_self _, A, h⟩
  | constructor | block | arrayInit =>
    rw [BoundShape.looseReads] at h
    exact .inr (mem_looseReadsAll h)
  | arrayElement | and | or | aggregate =>
    rw [BoundShape.looseReads, List.mem_append] at h
    rcases h with h | h
    · exact .inr ⟨_, List.mem_cons_self, _, h⟩
    · exact .inr ⟨_, List.mem_cons_of_mem _ (List.mem_singleton_self _), _, h⟩
  | methodCall method target arguments =>
    cases target with
    | none =>
      rw [BoundShape.looseReads] at h
      exact .inr (mem_looseReadsAll h)
    | some target =>
      rw [BoundShape.looseReads, List.mem_append] at h
      rcases h with h | h
      · exact .inr ⟨_, List.mem_cons_self, _, h⟩
      · obtain ⟨c, hc, hB⟩ := mem_looseReadsAll h
        exact .inr ⟨c, List.mem_cons_of_mem _ hc, hB⟩
  | conditional condition yes no? =>
    rw [BoundShape.looseReads_conditional, List.mem_append, List.mem_flatMap] at h
    rcases h with h | ⟨c, hc, h⟩
    · exact .inr ⟨_, List.mem_cons_self, _, h⟩
    · exact .inr ⟨c, List.mem_cons_of_mem _ hc, _, h⟩

mutual

/-- What was assigned stays assigned. -/
theorem BoundNode.subset_assigned : ∀ (n : BoundNode) (A : List Nat), A ⊆ n.assigned A
  | ⟨shape, _, _⟩, A => by
    unfold BoundNode.assigned
    exact shape.subset_assigned A

theorem BoundShape.subset_assigned : ∀ (shape : BoundShape) (A : List Nat), A ⊆ shape.assigned A
  | .literal _, A | .localVar _ _, A | .moduleField _, A | .error _, A => by
    unfold BoundShape.assigned
    exact List.Subset.refl A
  | .fieldAccess n _, A | .arrayLength n, A | .cast n _, A | .conditional n _ _, A | .and n _, A
  | .or n _, A | .newArray _ n, A | .aggregate _ n _ _ _, A => by
    unfold BoundShape.assigned
    exact n.subset_assigned A
  | .arrayElement array index, A => by
    unfold BoundShape.assigned
    exact List.Subset.trans (array.subset_assigned A) (index.subset_assigned _)
  | .methodCall _ none ns, A | .constructor _ ns, A | .block ns, A | .arrayInit ns, A => by
    unfold BoundShape.assigned
    exact subset_assignedAll ns A
  | .methodCall _ (some target) arguments, A => by
    unfold BoundShape.assigned
    exact List.Subset.trans (target.subset_assigned A) (subset_assignedAll arguments _)
  | .varDecl slot initial, A => by
    unfold BoundShape.assigned
    exact List.Subset.trans (initial.subset_assigned A) (List.subset_cons_self slot _)

theorem subset_assignedAll : ∀ (ns : List BoundNode) (A : List Nat), A ⊆ assignedAll A ns
  | [], A => by
    unfold assignedAll
    exact List.Subset.refl A
  | n :: ns, A => by
    unfold assignedAll
    exact List.Subset.trans (n.subset_assigned A) (subset_assignedAll ns _)

end

/-- How a load is answered after the accesses `before`. -/
def Explained (loose : List Nat) (before : List Access) (slot : Nat)
    (answer : Except EvalError Value) : Prop :=
  (∃ value, lastStored slot before = some value ∧ answer = .ok value) ∨
    lastStored slot before = none ∧ answer = .ok .null ∧ slot ∈ loose

/-- Every load of a record is explained by the accesses before it. -/
def LoadsExplained (loose : List Nat) (log : List Access) : Prop :=
  ∀ before slot answer after, log = before ++ .load slot answer :: after →
    Explained loose before slot answer

theorem LoadsExplained.append {loose : List Nat} {log : List Access} {access : Access}
    (h : LoadsExplained loose log)
    (hlast : ∀ slot answer, access = .load slot answer → Explained loose log slot answer) :
    LoadsExplained loose (log ++ [access]) := by
  intro before slot answer after hlog
  rcases List.eq_nil_or_concat after with rfl | ⟨init, last, rfl⟩
  · obtain ⟨rfl, haccess⟩ := List.append_inj' hlog rfl
    exact hlast slot answer (List.singleton_inj.1 haccess)
  · rw [List.concat_eq_append, ← List.cons_append, ← List.append_assoc] at hlog
    exact h before slot answer init (List.append_inj' hlog rfl).1

/-- The frame of `size` slots holds what the record says, and every load is explained.  The slots
of `A` have been stored to. -/
structure Traced (size : Nat) (loose A : List Nat) (st : Recorded) : Prop where
  frame : ∀ slot, slot < size ∨ (lastStored slot st.log).isSome →
    st.frames.load slot = .ok ((lastStored slot st.log).getD .null)
  loads : LoadsExplained loose st.log
  stored : ∀ slot ∈ A, (lastStored slot st.log).isSome

namespace Traced

variable {size slot : Nat} {loose A B : List Nat} {st : Recorded} {value : Value}

theorem subset (h : Traced size loose A st) (hsub : B ⊆ A) : Traced size loose B st :=
  ⟨h.frame, h.loads, fun slot hmem => h.stored slot (hsub hmem)⟩

theorem start (size : Nat) (loose : List Nat) : Traced size loose [] (.single size) where
  frame := by
    rintro slot (hlt | hstored)
    · have hslot : (Frames.emptyFrame size)[slot]? = some .null := by
        rw [Frames.emptyFrame, List.getElem?_replicate, if_pos hlt]
      simp only [Recorded.single, Frames.single, Frames.load, hslot]
      rfl
    · cases hstored
  loads := by
    intro before slot answer after hlog
    exact absurd hlog.symm (by simp [Recorded.single])
  stored := fun slot hmem => nomatch hmem

theorem silent {frames : Frames} (h : Traced size loose A st) (hframes : frames = st.frames) :
    Traced size loose A { st with frames } := by
  subst hframes
  exact ⟨h.frame, h.loads, h.stored⟩

end Traced

section Steps

variable {α : Type} {size slot : Nat} {loose A : List Nat} {value : Value}

theorem silent_traced {act : EvalM α} (h : Unchanging act) :
    Triple (Traced size loose A) (RecordM.silent act) (fun _ => Traced size loose A)
      (fun _ => Traced size loose []) := by
  intro st hst
  have hafter : Traced size loose A { st with frames := (act st.frames).2 } :=
    hst.silent (h st.frames)
  unfold RecordM.silent
  match (act st.frames).1 with
  | .ok a => exact hafter
  | .error e => exact hafter.subset (List.nil_subset A)

theorem ofResult_traced (r : Except EvalError α) :
    Triple (Traced size loose A) (ofResult r) (fun _ => Traced size loose A)
      (fun _ => Traced size loose []) := by
  have hsilent : Unchanging (ofResult r) := fun _ => rfl
  exact silent_traced hsilent

theorem invoke_traced (method : Method) (receiver : Option Value) (arguments : List Value) :
    Triple (Traced size loose A) (method.invoke receiver arguments) (fun _ => Traced size loose A)
      (fun _ => Traced size loose []) := by
  rw [method.invoke_eq_silent]
  exact silent_traced (method.invoke_unchanging receiver arguments)

theorem apply_traced (cast : Cast) (value : Value) :
    Triple (Traced size loose A) (cast.apply value) (fun _ => Traced size loose A)
      (fun _ => Traced size loose []) := by
  rw [cast.apply_eq_silent]
  exact silent_traced (cast.apply_unchanging value)

/-- A slot is loaded that was stored before, or loosely. -/
theorem load_traced (hslot : slot ∉ A → slot ∈ loose) (hloose : ∀ slot ∈ loose, slot < size) :
    Triple (Traced size loose A) (RecordM.load slot) (fun _ => Traced size loose A)
      (fun _ => Traced size loose []) := by
  intro st hst
  -- A slot that was not stored to is one of the loose ones, which lie in the frame.
  have hfound : slot < size ∨ (lastStored slot st.log).isSome := by
    by_cases hmem : slot ∈ A
    · exact .inr (hst.stored slot hmem)
    · exact .inl (hloose slot (hslot hmem))
  have hanswer := hst.frame slot hfound
  have hexplained : Explained loose st.log slot (st.frames.load slot) := by
    rw [hanswer]
    match hlast : lastStored slot st.log with
    | some value => exact .inl ⟨value, hlast, rfl⟩
    | none =>
      have hmem : slot ∉ A := fun hmem => by simpa [hlast] using hst.stored slot hmem
      exact .inr ⟨hlast, rfl, hslot hmem⟩
  unfold RecordM.load
  dsimp only
  rw [hanswer] at hexplained ⊢
  refine ⟨?_, ?_, ?_⟩
  · intro other hother
    rw [lastStored_append_load] at hother ⊢
    exact hst.frame other hother
  · refine hst.loads.append ?_
    rintro other answer ⟨⟩
    exact hexplained
  · intro other hmem
    rw [lastStored_append_load]
    exact hst.stored other hmem

/-- A store assigns its slot. -/
theorem store_traced :
    Triple (Traced size loose A) (RecordM.store slot value)
      (fun _ => Traced size loose (slot :: A)) (fun _ => Traced size loose []) := by
  intro st hst
  unfold RecordM.store
  match hstore : st.frames.store slot value with
  | .error e => exact hst.subset (List.nil_subset A)
  | .ok frames =>
    dsimp only
    refine ⟨?_, ?_, ?_⟩
    · intro other hother
      rw [lastStored_append_store] at hother ⊢
      split at hother
      case isTrue hsame =>
        subst hsame
        rw [if_pos rfl]
        exact Frames.load_store_same hstore
      case isFalse hne =>
        rw [if_neg hne]
        exact Frames.load_store_other hstore (Ne.symm hne) (hst.frame other hother)
    · exact hst.loads.append fun _ _ haccess => nomatch haccess
    · intro other hmem
      rw [lastStored_append_store]
      split
      · rfl
      case isFalse hne =>
        exact hst.stored other (List.mem_of_ne_of_mem (Ne.symm hne) hmem)

/-- Where an action need not run, what it assigns does not count. -/
theorem forget_traced {B : List Nat} {act : RecordM α}
    (h : Triple (Traced size loose A) act (fun _ => Traced size loose B)
      (fun _ => Traced size loose []))
    (hsub : A ⊆ B) :
    Triple (Traced size loose A) act (fun _ => Traced size loose A)
      (fun _ => Traced size loose []) :=
  h.imp (fun _ hst => hst) fun _ _ hst => hst.subset hsub

/-- A loop keeps what each of its steps keeps. -/
theorem loop_traced {kind : AggregateKind} {step : Loop.Step RecordM} {elements : List Value}
    (h : ∀ value, Triple (Traced size loose A) (step value) (fun _ => Traced size loose A)
      (fun _ => Traced size loose [])) :
    Triple (Traced size loose A) (Loop.run kind step elements) (fun _ => Traced size loose A)
      (fun _ => Traced size loose []) := by
  have hstep (value : Value) (_ : value ∈ elements) : Triple (Traced size loose A) (step value)
      (fun _ st => (True ∧ True) ∧ Traced size loose A st) (fun _ => Traced size loose []) :=
    (h value).imp (fun _ hst => hst) fun _ _ hst => ⟨⟨trivial, trivial⟩, hst⟩
  have hrun := Loop.run_triple (S := fun _ => True) (T := fun _ => True) kind hstep
  exact hrun.imp (fun _ hst => hst) fun _ _ hst => hst.2

end Steps

/-! ## Evaluation -/

mutual

/-- A run stores and loads as `assigned` and `looseReads` foretell. -/
theorem BoundNode.eval_traced {size : Nat} {loose : List Nat}
    (hsize : ∀ slot ∈ loose, slot < size) :
    ∀ (n : BoundNode) (A : List Nat), n.looseReads A ⊆ loose →
      Triple (Traced size loose A) n.eval (fun _ => Traced size loose (n.assigned A))
        (fun _ => Traced size loose [])
  | ⟨shape, t, _⟩, A, hloose => by
    unfold BoundNode.eval BoundNode.assigned
    unfold BoundNode.looseReads at hloose
    exact shape.eval_traced hsize t A hloose

theorem BoundShape.eval_traced {size : Nat} {loose : List Nat}
    (hsize : ∀ slot ∈ loose, slot < size) (t : Ty) :
    ∀ (shape : BoundShape) (A : List Nat), shape.looseReads A ⊆ loose →
      Triple (Traced size loose A) (shape.eval t)
        (fun _ => Traced size loose (shape.assigned A)) (fun _ => Traced size loose [])
  | .literal _, A, _ => by
    unfold BoundShape.eval BoundShape.assigned
    exact .pure fun _ hst => hst
  | .localVar _ slot, A, hloose => by
    unfold BoundShape.eval BoundShape.assigned
    unfold BoundShape.looseReads at hloose
    refine load_traced (fun hslot => ?_) hsize
    rw [if_neg hslot] at hloose
    exact hloose List.mem_cons_self
  | .moduleField _, A, _ => by
    unfold BoundShape.eval BoundShape.assigned
    exact .pure fun _ hst => hst
  | .fieldAccess target _, A, hloose => by
    unfold BoundShape.eval BoundShape.assigned
    unfold BoundShape.looseReads at hloose
    exact (target.eval_traced hsize A hloose).bind fun _ => ofResult_traced _
  | .arrayLength array, A, hloose => by
    unfold BoundShape.eval BoundShape.assigned
    unfold BoundShape.looseReads at hloose
    exact (array.evalArray_traced hsize A hloose).bind fun _ => .pure fun _ hst => hst
  | .arrayElement array index, A, hloose => by
    unfold BoundShape.eval BoundShape.assigned
    unfold BoundShape.looseReads at hloose
    obtain ⟨harray, hindex⟩ := List.append_subset.1 hloose
    refine (array.evalArray_traced hsize A harray).bind fun _ => ?_
    refine (index.eval_traced hsize _ hindex).bind fun _ => ?_
    exact (ofResult_traced _).bind fun _ => ofResult_traced _
  | .cast operand cast, A, hloose => by
    unfold BoundShape.eval BoundShape.assigned
    unfold BoundShape.looseReads at hloose
    exact (operand.eval_traced hsize A hloose).bind fun value =>
      apply_traced cast value
  | .methodCall method none arguments, A, hloose => by
    unfold BoundShape.eval BoundShape.assigned
    unfold BoundShape.looseReads at hloose
    exact (evalAll_traced hsize arguments A hloose).bind fun _ =>
      invoke_traced method _ _
  | .methodCall method (some target) arguments, A, hloose => by
    unfold BoundShape.eval BoundShape.assigned
    unfold BoundShape.looseReads at hloose
    obtain ⟨htarget, harguments⟩ := List.append_subset.1 hloose
    refine (target.eval_traced hsize A htarget).bind fun receiver => ?_
    have hcall := (evalAll_traced hsize arguments _ harguments).bind fun values =>
      invoke_traced method (some receiver) values
    refine .ite (fun _ => ?_) fun _ => hcall
    exact Triple.bind (.throw fun _ hst => hst.subset (List.nil_subset _)) fun _ => hcall
  | .constructor method arguments, A, hloose => by
    unfold BoundShape.eval BoundShape.assigned
    unfold BoundShape.looseReads at hloose
    exact (evalAll_traced hsize arguments A hloose).bind fun _ =>
      invoke_traced method _ _
  | .conditional condition yes none, A, hloose => by
    unfold BoundShape.eval BoundShape.assigned
    unfold BoundShape.looseReads at hloose
    obtain ⟨hcondition, hyes⟩ := List.append_subset.1 hloose
    refine (condition.evalCondition_traced hsize A hcondition).bind fun _ => ?_
    refine .ite (fun _ => ?_) fun _ => .pure fun _ hst => hst
    exact forget_traced (yes.eval_traced hsize _ hyes) (yes.subset_assigned _)
  | .conditional condition yes (some no), A, hloose => by
    unfold BoundShape.eval BoundShape.assigned
    unfold BoundShape.looseReads at hloose
    obtain ⟨hcondition, hbranches⟩ := List.append_subset.1 hloose
    obtain ⟨hyes, hno⟩ := List.append_subset.1 hbranches
    refine (condition.evalCondition_traced hsize A hcondition).bind fun _ => ?_
    refine .ite (fun _ => ?_) fun _ => ?_
    · exact forget_traced (yes.eval_traced hsize _ hyes) (yes.subset_assigned _)
    · exact forget_traced (no.eval_traced hsize _ hno) (no.subset_assigned _)
  | .and left right, A, hloose => by
    unfold BoundShape.eval BoundShape.assigned
    unfold BoundShape.looseReads at hloose
    obtain ⟨hleft, hright⟩ := List.append_subset.1 hloose
    refine (left.evalCondition_traced hsize A hleft).bind fun _ => ?_
    refine .ite (fun _ => .map ?_) fun _ => .pure fun _ hst => hst
    exact forget_traced (right.evalCondition_traced hsize _ hright) (right.subset_assigned _)
  | .or left right, A, hloose => by
    unfold BoundShape.eval BoundShape.assigned
    unfold BoundShape.looseReads at hloose
    obtain ⟨hleft, hright⟩ := List.append_subset.1 hloose
    refine (left.evalCondition_traced hsize A hleft).bind fun _ => ?_
    refine .ite (fun _ => .pure fun _ hst => hst) fun _ => .map ?_
    exact forget_traced (right.evalCondition_traced hsize _ hright) (right.subset_assigned _)
  | .block statements, A, hloose => by
    unfold BoundShape.eval BoundShape.assigned
    unfold BoundShape.looseReads at hloose
    exact (evalAll_traced hsize statements A hloose).bind fun _ => .pure fun _ hst => hst
  | .varDecl slot initial, A, hloose => by
    unfold BoundShape.eval BoundShape.assigned
    unfold BoundShape.looseReads at hloose
    refine (initial.eval_traced hsize A hloose).bind fun _ => ?_
    exact store_traced.bind fun _ => .pure fun _ hst => hst
  | .newArray _ size, A, hloose => by
    unfold BoundShape.eval BoundShape.assigned
    unfold BoundShape.looseReads at hloose
    refine (size.eval_traced hsize A hloose).bind fun _ => ?_
    exact (ofResult_traced _).bind fun _ => ofResult_traced _
  | .arrayInit elements, A, hloose => by
    unfold BoundShape.eval BoundShape.assigned
    unfold BoundShape.looseReads at hloose
    exact .map (evalAll_traced hsize elements A hloose)
  | .aggregate kind source slot none body, A, hloose => by
    unfold BoundShape.eval BoundShape.assigned
    unfold BoundShape.looseReads at hloose
    obtain ⟨hsource, hbody⟩ := List.append_subset.1 hloose
    refine (source.evalArray_traced hsize A hsource).bind fun _ => loop_traced fun value => ?_
    refine store_traced.bind fun _ => (body.eval_traced hsize _ hbody).bind fun _ => ?_
    exact .pure fun _ hst => hst.subset (List.Subset.trans (List.subset_cons_self _ _)
      (body.subset_assigned _))
  | .aggregate kind source slot (some cast) body, A, hloose => by
    unfold BoundShape.eval BoundShape.assigned
    unfold BoundShape.looseReads at hloose
    obtain ⟨hsource, hbody⟩ := List.append_subset.1 hloose
    refine (source.evalArray_traced hsize A hsource).bind fun _ => loop_traced fun value => ?_
    refine (apply_traced cast value).bind fun _ => ?_
    refine store_traced.bind fun _ => (body.eval_traced hsize _ hbody).bind fun _ => ?_
    exact .pure fun _ hst => hst.subset (List.Subset.trans (List.subset_cons_self _ _)
      (body.subset_assigned _))
  | .error _, A, _ => by
    unfold BoundShape.eval
    exact .throw fun _ hst => hst.subset (List.nil_subset _)

theorem BoundNode.evalArray_traced {size : Nat} {loose : List Nat}
    (hsize : ∀ slot ∈ loose, slot < size) :
    ∀ (n : BoundNode) (A : List Nat), n.looseReads A ⊆ loose →
      Triple (Traced size loose A) n.evalArray (fun _ => Traced size loose (n.assigned A))
        (fun _ => Traced size loose [])
  | ⟨shape, t, _⟩, A, hloose => by
    unfold BoundNode.evalArray BoundNode.assigned
    unfold BoundNode.looseReads at hloose
    exact (shape.eval_traced hsize t A hloose).bind fun _ => ofResult_traced _

theorem BoundNode.evalCondition_traced {size : Nat} {loose : List Nat}
    (hsize : ∀ slot ∈ loose, slot < size) :
    ∀ (n : BoundNode) (A : List Nat), n.looseReads A ⊆ loose →
      Triple (Traced size loose A) n.evalCondition (fun _ => Traced size loose (n.assigned A))
        (fun _ => Traced size loose [])
  | ⟨shape, t, _⟩, A, hloose => by
    unfold BoundNode.evalCondition BoundNode.assigned
    unfold BoundNode.looseReads at hloose
    exact (shape.eval_traced hsize t A hloose).bind fun _ => ofResult_traced _

theorem evalAll_traced {size : Nat} {loose : List Nat} (hsize : ∀ slot ∈ loose, slot < size) :
    ∀ (ns : List BoundNode) (A : List Nat), looseReadsAll A ns ⊆ loose →
      Triple (Traced size loose A) (evalAll ns) (fun _ => Traced size loose (assignedAll A ns))
        (fun _ => Traced size loose [])
  | [], A, _ => by
    unfold evalAll assignedAll
    exact .pure fun _ hst => hst
  | n :: ns, A, hloose => by
    unfold evalAll assignedAll
    unfold looseReadsAll at hloose
    obtain ⟨hn, hns⟩ := List.append_subset.1 hloose
    refine (n.eval_traced hsize A hn).bind fun _ => ?_
    exact (evalAll_traced hsize ns _ hns).bind fun _ => .pure fun _ hst => hst

end

end RuleExpr

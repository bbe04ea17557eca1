import RuleExpr.Proofs.Binding.Declared
import RuleExpr.Proofs.Binding.Slots
import RuleExpr.Proofs.BuiltModules
import RuleExpr.Proofs.Evaluation.Library
import RuleExpr.Proofs.Soundness.Modules

/-!
# Slots of a Frame

A bound tree comes with the size of the frame that it needs.  The parameters, declarations and
loops have slots of their own, and no node refers to a slot outside of the frame.  A run in a frame
of that size therefore reads and writes inside of it and never makes it longer.

The methods that a tree calls run in frames of their own.  They were bound in the same way, so the
same holds of them, and of the methods that they call in turn.  Of native methods it is assumed that
they do not pretend to have missed a slot.
-/

namespace RuleExpr

open BindM BindState Fallible

namespace Frames

/-- The topmost frame has `size` slots, and `rest` is below it. -/
def Sized (size : Nat) (rest : List Frame) (frames : Frames) : Prop :=
  ∃ top, frames.stack = top :: rest ∧ top.length = size

theorem length_write {frame : Frame} {slot : Nat} (h : slot < frame.length) (value : Value) :
    (write frame slot value).length = frame.length := by
  have hnothing : slot + 1 - frame.length = 0 := by omega
  rw [write, List.length_set, hnothing, emptyFrame, List.replicate_zero, List.append_nil]

theorem push_sized (frames : Frames) (size : Nat) : (frames.push size).Sized size frames.stack :=
  ⟨emptyFrame size, rfl, List.length_replicate⟩

end Frames

open Frames (Sized)

/-- The error is not about a slot outside of a frame. -/
def EvalError.InRange (e : EvalError) : Prop := ∀ slot, e ≠ .slotOutOfRange slot

theorem EvalError.inRange_of_ordinary {e : EvalError} (h : e.aboutFrames = false) : e.InRange := by
  rintro slot rfl
  cases h

variable {size slot : Nat} {rest : List Frame}

theorem load_sized (h : slot < size) :
    Keeps (Sized size rest) EvalError.InRange (EvalM.load slot) := by
  rintro frames ⟨top, hstack, hlength⟩
  refine ⟨⟨top, hstack, hlength⟩, ?_⟩
  have hload : frames.load slot = .ok top[slot] := by
    rw [Frames.load, hstack]
    dsimp only
    rw [List.getElem?_eq_getElem (hlength ▸ h)]
  intro e he
  cases hload.symm.trans he

theorem store_sized (h : slot < size) (value : Value) :
    Keeps (Sized size rest) EvalError.InRange (EvalM.store slot value) := by
  rintro frames ⟨top, hstack, hlength⟩
  have hstore : frames.store slot value = .ok ⟨Frames.write top slot value :: rest⟩ := by
    rw [Frames.store, hstack]
  rw [EvalM.store, hstore]
  refine ⟨⟨_, rfl, (Frames.length_write (hlength ▸ h) value).trans hlength⟩, ?_⟩
  intro e he
  cases he

/-- In a new frame an action fails as it does in a frame of that size. -/
theorem inFrame_inRange {act : EvalM Value}
    (h : ∀ rest, Keeps (Sized size rest) EvalError.InRange act) (frames : Frames) (e : EvalError)
    (he : (EvalM.inFrame size act frames).1 = .error e) : e.InRange := by
  obtain ⟨⟨top, hstack, -⟩, herror⟩ := h frames.stack (frames.push size) (frames.push_sized size)
  unfold EvalM.inFrame at he
  match hrun : act (frames.push size) with
  | (result, frames') =>
    rw [hrun] at hstack herror he
    replace hstack : frames'.stack = top :: frames.stack := hstack
    simp only [Frames.pop, hstack] at he
    exact herror e he

/-- Trees whose nodes refer to slots of the frame and to methods that stay in their frames run in
the frame. -/
theorem BoundNode.Allocated.eval_sized {P : Program} {root : BoundNode}
    (h : root.Allocated P size) (hcalls : ∀ m, P.Provides m → m.FailsIn EvalError.InRange) :
    Keeps (Sized size rest) EvalError.InRange root.eval := by
  refine root.eval_keeps (h.imp fun shape _ hshape => ?_)
  exact {
    ordinary := fun _ => EvalError.inRange_of_ordinary
    load := by
      rintro name slot rfl
      exact load_sized (hshape.slots_lt slot List.mem_cons_self)
    store := by
      intro slot hslot
      refine store_sized (hshape.slots_lt slot ?_)
      cases shape <;> first | exact hslot | cases hslot
    call := fun hcall => hcalls _ (hshape.provides _ hcall) }

theorem declareParams_slots {σ : BindSettings} {span : Span} {params : List (String × Ty)}
    {s s' : BindState} {slots : List (Option Nat)} (hs : s.WellScoped)
    (hrun : declareParams span params σ s = (.ok slots, s')) :
    SlotsBetween s.nextSlot s'.nextSlot (slots.filterMap id) := by
  induction params generalizing s slots with
  | nil =>
    obtain ⟨rfl, rfl⟩ := pure_eq_ok.1 hrun
    exact .nil
  | cons param params ih =>
    obtain ⟨var?, s₁, hadd, hrun⟩ := bind_eq_ok.1 hrun
    obtain ⟨others, s₂, hothers, hrun⟩ := bind_eq_ok.1 hrun
    obtain ⟨rfl, rfl⟩ := pure_eq_ok.1 hrun
    have hextends := ((addVar_restored _ _ _ _).of_run hadd).1 hs
    have hs₁ := hextends.wellScoped hs
    have hle := (((declareParams_restored _ _).of_run hothers).1 hs₁).nextSlot
    have hrest := ih hs₁ hothers
    -- A parameter whose name is taken has no slot.
    cases var? with
    | none => exact hrest.mono hextends.nextSlot (Nat.le_refl _)
    | some var =>
      obtain ⟨hadds, -, -⟩ := addVar_eq_some hadd
      have hnext := hadds.nextSlot
      have hslot := hadds.slot
      change SlotsBetween _ _ (var.slot :: others.filterMap id)
      refine (hrest.mono hextends.nextSlot (Nat.le_refl _)).cons ?_ (by omega) (by omega)
      intro hmem
      have := (hrest.range _ hmem).1
      omega

/-- A body that is converted to a declared type is an elaboration still. -/
theorem Elaborates.coerced {σ : BindSettings} {node : SyntaxNode} {s s₁ s' : BindState}
    {b c : BoundNode} {t : Ty} (hs : s.WellScoped) (h : Elaborates σ node s b s₁)
    (hrun : coerce b t σ s₁ = (.ok c, s')) : Elaborates σ node s c s' := by
  have hq := ((coerce_still _ _).of_run hrun).1
  cases hb : b.isError with
  | true =>
    -- There is nothing to convert.
    unfold coerce at hrun
    rw [hb, Bool.true_or, if_pos rfl] at hrun
    obtain ⟨rfl, -⟩ := pure_eq_ok.1 hrun
    exact h.before hq
  | false => exact (h.converted hs hb (coerce_converts hb hrun).1).before hq

/-- The slots of a tree and of the parameters around it fit into a frame of `size` slots. -/
structure BoundNode.SlotsSound (params : List Nat) (size : Nat) (root : BoundNode) : Prop where
  distinct : (params ++ root.declaredSlots).Nodup
  params_lt : ∀ slot ∈ params, slot < size
  nodes_lt : ∀ n : BoundNode, n.Within root → ∀ slot ∈ n.shape.slots, slot < size

section Body

variable {owner : RuleModule} {w : Workspace} {config : Config}

/-- A tree that was bound after its parameters in a fresh context. -/
theorem Elaborates.slotsSound {node : SyntaxNode} {s s' : BindState} {root : BoundNode}
    {params : List Nat} (h : Elaborates (.standard config) node s root s') (hs : s.WellScoped)
    (hslots : s.SlotsBelow) (hparams : SlotsBetween 0 s.nextSlot params) :
    root.SlotsSound params s'.nextSlot := by
  have hle := (h.extends hs).nextSlot
  have hall := hparams.append (h.declaredSlots hs) (Nat.zero_le _) hle
  exact {
    distinct := hall.nodup
    params_lt := fun slot hmem => (hall.range slot (List.mem_append_left _ hmem)).2
    nodes_lt := fun n hn => (h.allocated hs hslots n hn).slots_lt }

/-- What is known of a body that was bound: its slots, and the methods that it calls. -/
theorem bindBody_slots {params : List (String × Ty)} {returns : Option Ty} {body : SyntaxNode}
    {slots : List (Option Nat)} {root : BoundNode} {s' : BindState}
    (hrun : bindBody params returns body (.standard config) (start owner w) =
      (.ok (slots, root), s')) :
    root.SlotsSound (slots.filterMap id) s'.nextSlot ∧
      root.Allocated (start owner w).program s'.nextSlot := by
  obtain ⟨slots', s₁, hparams, hrun⟩ := bind_eq_ok.1 hrun
  obtain ⟨root', s₂, hbody, hrun⟩ := bind_eq_ok.1 hrun
  have hs := start_wellScoped owner w
  have hextends := ((declareParams_restored _ _).of_run hparams).1 hs
  have hs₁ := hextends.wellScoped hs
  have hslots₁ := hextends.slotsBelow (start_slotsBelow owner w)
  have hbetween := declareParams_slots hs hparams
  have hanswer := (bind_answers body hs₁ hbody).elaborates
  have helaborates : slots = slots' ∧ Elaborates (.standard config) body s₁ root s' := by
    cases returns with
    | none =>
      obtain ⟨hpair, rfl⟩ := pure_eq_ok.1 hrun
      cases hpair
      exact ⟨rfl, hanswer⟩
    | some t =>
      obtain ⟨c, s₃, hcoerce, hrun⟩ := bind_eq_ok.1 hrun
      obtain ⟨hpair, rfl⟩ := pure_eq_ok.1 hrun
      cases hpair
      exact ⟨rfl, hanswer.coerced hs₁ hcoerce⟩
  obtain ⟨rfl, helaborates⟩ := helaborates
  refine ⟨helaborates.slotsSound hs₁ hslots₁ hbetween, ?_⟩
  rw [← hextends.program]
  exact helaborates.allocated hs₁ hslots₁

end Body

/-- Native methods that do not answer with a slot outside of a frame, and methods with bodies that
were bound where all methods on offer are such methods. -/
inductive Method.Made : Method → Prop
  | native {head : MethodHead} {run : Option Value → List Value → Except EvalError Value}
      (h : ∀ receiver arguments e, run receiver arguments = .error e → e.InRange) :
      Made (.native head run)
  | bound {owner : RuleModule} {w : Workspace} {name : String} {params : List (String × Ty)}
      {returns : Option Ty} {body : SyntaxNode} {config : Config} {head head' : MethodHead}
      {slots : List (Option Nat)} {size : Nat} {root : BoundNode}
      (hoffers : ∀ m, (start owner w).program.Offers m → Made m)
      (h : (bindMethod owner w name params returns body config).1 =
        .ok (.defined head slots size root)) : Made (.defined head' slots size root)

theorem Program.Provides.failsIn {P : Program} {m : Method}
    (hoffers : ∀ m, P.Offers m → m.FailsIn EvalError.InRange) (h : P.Provides m) :
    m.FailsIn EvalError.InRange := by
  cases h with
  | offered h => exact hoffers m h
  | operator h =>
    intro receiver arguments frames e he
    have hmem := (List.mem_filter.1 h).1
    exact EvalError.inRange_of_ordinary
      (Library.operators_ordinary hmem receiver arguments frames e he)
  | conversion h hm =>
    subst hm
    intro receiver arguments frames e he
    exact EvalError.inRange_of_ordinary (Library.casts_ordinary h receiver arguments frames e he)

/-- No method that can be called fails with a slot outside of a frame. -/
theorem Method.Made.failsIn {m : Method} (h : m.Made) : m.FailsIn EvalError.InRange := by
  induction h with
  | native h =>
    intro receiver arguments frames e he
    rw [invoke] at he
    exact h receiver arguments e he
  | @bound owner w name params returns body config head head' slots size root _ hbind ih =>
    intro receiver arguments frames e he
    rcases hrun : bindMethod owner w name params returns body config with ⟨_ | f, owner', w'⟩
    case error =>
      rw [hrun] at hbind
      cases hbind
    case ok =>
      rw [hrun] at hbind
      obtain rfl := Except.ok.inj hbind
      obtain ⟨_, _, _, s', hf, hbody, -⟩ := bindMethod_eq_ok hrun
      obtain ⟨rfl, rfl, rfl, rfl⟩ := Method.defined.inj hf
      obtain ⟨hslots, hallocated⟩ := bindBody_slots hbody
      -- The body runs in a frame of its own; the methods that it calls are smaller ones.
      rw [invoke] at he
      refine inFrame_inRange (fun rest => ?_) frames e he
      refine Keeps.bind ?_ fun _ => hallocated.eval_sized fun m hm => hm.failsIn ih
      refine storeArguments_keeps (fun slot hslot => ?_) arguments
      refine store_sized (hslots.params_lt slot ?_)
      exact List.mem_filterMap.2 ⟨some slot, hslot, rfl⟩

/-- In a frame of `size` slots the tree finds all its slots, and the frame keeps its length. -/
def BoundNode.RunsIn (size : Nat) (root : BoundNode) : Prop :=
  ∀ rest, Keeps (Sized size rest) EvalError.InRange root.eval

theorem BoundNode.Allocated.runsIn {P : Program} {root : BoundNode} (h : root.Allocated P size)
    (hoffers : ∀ m, P.Offers m → m.Made) : root.RunsIn size :=
  fun _ => h.eval_sized fun _ hm => hm.failsIn fun m hm => (hoffers m hm).failsIn

/-- Whatever tree is bound, as an expression or as the body of a method: its declarations, loops
and parameters have different slots, all slots are below the size of its frame, and it runs in a
frame of that size. -/
theorem bound_slots_sound (owner : RuleModule) (w : Workspace) (config : Config) :
    (∀ (node : SyntaxNode) (e : BoundExpression),
      (bindExpression node owner w config).1 = .ok e → e.root.SlotsSound [] e.frameSize ∧
        ((∀ m, (start owner w).program.Offers m → m.Made) → e.root.RunsIn e.frameSize)) ∧
    ∀ (name : String) (params : List (String × Ty)) (returns : Option Ty) (body : SyntaxNode)
      (f : Method), (bindMethod owner w name params returns body config).1 = .ok f →
      ∃ head slots size root, f = .defined head slots size root ∧
        root.SlotsSound (slots.filterMap id) size ∧
        ((∀ m, (start owner w).program.Offers m → m.Made) → root.RunsIn size) := by
  constructor
  · intro node e h
    obtain ⟨s', hrun, hsize, -⟩ := bindExpression_eq_ok h
    have hs := start_wellScoped owner w
    have hslots := start_slotsBelow owner w
    have helaborates := (bind_answers node hs hrun).elaborates
    rw [hsize]
    exact ⟨helaborates.slotsSound hs hslots .nil, (helaborates.allocated hs hslots).runsIn⟩
  · intro name params returns body f h
    match hrun : bindMethod owner w name params returns body config with
    | (.error e, result) =>
      rw [hrun] at h
      cases h
    | (.ok f', owner', w') =>
      rw [hrun] at h
      obtain rfl := Except.ok.inj h
      obtain ⟨head, slots, root, s', hf, hbody, -⟩ := bindMethod_eq_ok hrun
      obtain ⟨hslots, hallocated⟩ := bindBody_slots hbody
      exact ⟨head, slots, s'.nextSlot, root, hf, hslots, hallocated.runsIn⟩

/-- Where no type has members, all methods on offer belong to the module. -/
theorem Program.Offers.named {P : Program} {m : Method} (h : P.Offers m)
    (htable : P.declarations.table = []) : ∃ name, m ∈ P.methodsNamed name := by
  cases h with
  | free h => exact ⟨_, h⟩
  | member h =>
    rw [Declarations.methodsNamed_eq_nil (by simp [htable])] at h
    cases h
  | constructor h =>
    obtain ⟨entry, hentry, -⟩ := Declarations.mem_of_constructors h
    rw [htable] at hentry
    cases hentry

/-- A new module offers nothing. -/
theorem not_offers_empty (name ns : String) (space : Nat) (m : Method) :
    ¬(start (.empty name ns space) .empty).program.Offers m := by
  intro h
  have htable : (start (.empty name ns space) .empty).program.declarations.table = [] := rfl
  obtain ⟨called, hmem⟩ := h.named htable
  have hnone : (start (.empty name ns space) .empty).program.methodsNamed called = [] := rfl
  rw [hnone] at hmem
  cases hmem

/-- A module with one method, without imports or types with members, offers that method alone. -/
theorem eq_of_offers {owner : RuleModule} {w : Workspace} {f m : Method}
    (hcurrent : owner.importsCurrent = true) (himports : owner.importedMethods = [])
    (hown : owner.methods = [f]) (htable : w.declarations.table = [])
    (h : (start owner w).program.Offers m) : m = f := by
  have hstart : owner.ensureImports w = (owner, w) := if_pos hcurrent
  unfold start at h
  rw [hstart] at h
  obtain ⟨name, hmem⟩ := h.named htable
  simp only [program, RuleModule.methodsNamed, hown, himports, List.filter_nil,
    List.append_nil] at hmem
  exact List.mem_singleton.1 (List.mem_filter.1 hmem).1

/-- A method is bound, and then a loop that calls it. -/
theorem bound_slots_sound_loop :
    let x : SyntaxNode := .leaf .identifier "x" .nowhere
    let bound := bindMethod (.empty "Rules" "rules" 0) .empty "twice" [("x", .int)] none
      ⟨.binary .add, none, [x, x], .nowhere⟩ .standard
    let node : SyntaxNode := ⟨.aggregate .collect, none,
      [⟨.arrayInit, none, [.leaf (.literal .integer) "1" .nowhere], .nowhere⟩,
        ⟨.loopVar, some "x", [.leaf .typeName "int" .nowhere], .nowhere⟩,
        ⟨.methodCall, some "twice", [x], .nowhere⟩], .nowhere⟩
    ∃ f e, bound.1 = .ok f ∧ f.Made ∧
      (∃ head slots size root, f = .defined head slots size root ∧
        root.SlotsSound (slots.filterMap id) size ∧ root.RunsIn size) ∧
      (bindExpression node bound.2.1 bound.2.2 .standard).1 = .ok e ∧ e.hasErrors = false ∧
      e.root.SlotsSound [] 1 ∧ e.root.RunsIn 1 := by
  intro x bound node
  have hcheck : bound.1.isOk = true ∧ bound.2.1.importsCurrent = true ∧
      bound.2.1.importedMethods.length = 0 ∧ bound.2.1.methods.length = 1 ∧
      bound.2.2.declarations.table.length = 0 ∧
      (bindExpression node bound.2.1 bound.2.2 .standard).1.toOption.any
        (fun e => e.hasErrors = false ∧ e.frameSize = 1) = true := by decide +kernel
  obtain ⟨hbound, hcurrent, himported, hmethods, htable, hexpression⟩ := hcheck
  match hf : bound.1, he : (bindExpression node bound.2.1 bound.2.2 .standard).1 with
  | .error _, _ =>
    rw [hf] at hbound
    cases hbound
  | .ok _, .error _ =>
    rw [he] at hexpression
    cases hexpression
  | .ok f, .ok e =>
    rw [he] at hexpression
    obtain ⟨hclean, hsize⟩ : e.hasErrors = false ∧ e.frameSize = 1 :=
      of_decide_eq_true hexpression
    have hrun : bound = (.ok f, bound.2.1, bound.2.2) := by rw [← hf]
    obtain ⟨head, slots, root, s', hdefined, -, hadd⟩ := bindMethod_eq_ok hrun
    have hown : bound.2.1.methods = [f] := by
      have howner : bound.2.1.methods = (s'.owner.report s'.diagnostics).methods ++ [f] :=
        congrArg RuleModule.methods (RuleModule.addMethod_eq_ok.1 hadd).2
      rw [howner, List.length_append, List.length_singleton] at hmethods
      have hnone := List.eq_nil_of_length_eq_zero (Nat.succ.inj hmethods)
      rw [howner, hnone, List.nil_append]
    have hnothing (m : Method)
        (hm : (start (.empty "Rules" "rules" 0) .empty).program.Offers m) : m.Made :=
      absurd hm (not_offers_empty _ _ _ m)
    have hmade : f.Made := by
      rw [hdefined]
      exact .bound hnothing (hf.trans (congrArg _ hdefined))
    have hoffers : ∀ m, (start bound.2.1 bound.2.2).program.Offers m → m.Made := by
      intro m hm
      rw [eq_of_offers hcurrent (List.eq_nil_of_length_eq_zero himported) hown
        (List.eq_nil_of_length_eq_zero htable) hm]
      exact hmade
    obtain ⟨head, slots, size, root, hshape, hbody, hbodyRuns⟩ :=
      (bound_slots_sound (.empty "Rules" "rules" 0) .empty .standard).2 _ _ _ _ f hf
    obtain ⟨hslots, hruns⟩ := (bound_slots_sound bound.2.1 bound.2.2 .standard).1 node e he
    rw [hsize] at hslots hruns
    exact ⟨f, e, rfl, hmade, ⟨head, slots, size, root, hshape, hbody, hbodyRuns hnothing⟩, rfl,
      hclean, hslots, hruns hoffers⟩

end RuleExpr

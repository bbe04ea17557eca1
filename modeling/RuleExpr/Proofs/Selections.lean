import RuleExpr.Cast.Distance
import RuleExpr.Proofs.Evaluation.Frames
import Mathlib.Data.List.Forall2

/-!
# Selections

The three loops over the elements of a source run in the same rounds.  `Loop.Rounds` lists these
rounds, each with the element as the loop variable holds it and the value of the body, and every
loop is read off the list: selecting all gives the elements for which the body was true, selecting
the first gives the first of these, and collecting gives the values of the body.
-/

namespace RuleExpr

open Fallible

namespace Loop

variable {σ : Type} {step : Step (Fallible σ)} {elements : List Value} {st st' : σ}
  {rounds : List (Value × Value)}

/-- From `st` to `st'`, every step of a loop over the elements succeeds, with the given elements and
outcomes. -/
inductive Rounds (step : Step (Fallible σ)) : List Value → σ → List (Value × Value) → σ → Prop
  | nil (st : σ) : Rounds step [] st [] st
  | cons {value : Value} {rest : List Value} {st st₁ st' : σ} {round : Value × Value}
      {rounds : List (Value × Value)} (hstep : step value st = (.ok round, st₁))
      (hrest : Rounds step rest st₁ rounds st') :
      Rounds step (value :: rest) st (round :: rounds) st'

/-- The elements of the rounds in which the body was true. -/
def selected (rounds : List (Value × Value)) : List Value :=
  (rounds.filter fun round => isTrue round.2).map (·.1)

theorem selected_cons (round : Value × Value) (rounds : List (Value × Value)) :
    selected (round :: rounds) =
      if isTrue round.2 then round.1 :: selected rounds else selected rounds := by
  unfold selected
  rw [List.filter_cons]
  split <;> rfl

theorem selected_sublist (rounds : List (Value × Value)) :
    (selected rounds).Sublist (rounds.map (·.1)) :=
  List.filter_sublist.map _

/-- Selecting all goes through all rounds. -/
theorem rounds_of_selectAll {found : List Value}
    (h : selectAll step elements st = (.ok found, st')) :
    ∃ rounds, Rounds step elements st rounds st' ∧ found = selected rounds := by
  induction elements generalizing st found with
  | nil =>
    cases h
    exact ⟨[], .nil _, rfl⟩
  | cons value rest ih =>
    obtain ⟨round, st₁, hstep, hrest⟩ := run_bind_eq_ok h
    obtain ⟨others, st₂, hothers, hpure⟩ := run_bind_eq_ok hrest
    cases hpure
    obtain ⟨rounds, hrounds, rfl⟩ := ih hothers
    exact ⟨round :: rounds, .cons hstep hrounds, (selected_cons round rounds).symm⟩

/-- Collecting goes through all rounds. -/
theorem rounds_of_collect {outcomes : List Value}
    (h : collect step elements st = (.ok outcomes, st')) :
    ∃ rounds, Rounds step elements st rounds st' ∧ outcomes = rounds.map (·.2) := by
  induction elements generalizing st outcomes with
  | nil =>
    cases h
    exact ⟨[], .nil _, rfl⟩
  | cons value rest ih =>
    obtain ⟨round, st₁, hstep, hrest⟩ := run_bind_eq_ok h
    obtain ⟨others, st₂, hothers, hpure⟩ := run_bind_eq_ok hrest
    cases hpure
    obtain ⟨rounds, hrounds, rfl⟩ := ih hothers
    exact ⟨round :: rounds, .cons hstep hrounds, rfl⟩

/-- Selecting the first goes through the same rounds, up to the first in which the body is true. -/
theorem Rounds.selectFirst (h : Rounds step elements st rounds st') :
    (Loop.selectFirst step elements st).1 = .ok ((selected rounds).headD .null) := by
  induction h with
  | nil => rfl
  | @cons value rest st st₁ st' round rounds hstep hrest ih =>
    rw [Loop.selectFirst, run_bind, hstep, selected_cons]
    dsimp only
    split
    · rfl
    · exact ih

/-- What holds of every step holds of every round, in the order of the elements. -/
theorem Rounds.forall₂ {R : Value → Value × Value → Prop}
    (hstep : ∀ value st round st₁, step value st = (.ok round, st₁) → R value round)
    (h : Rounds step elements st rounds st') : List.Forall₂ R elements rounds := by
  induction h with
  | nil => exact .nil
  | cons hround _ ih => exact .cons (hstep _ _ _ _ hround) ih

end Loop

/-- An element of the source as the loop variable holds it. -/
def convertElement (cast? : Option Cast) (value : Value) : EvalM Value :=
  match cast? with
  | some cast => cast.apply value
  | none => pure value

/-- One round: the element is converted and stored, and the body runs. -/
def loopRound (slot : Nat) (cast? : Option Cast) (body : BoundNode) : Loop.Step EvalM :=
  fun value => do
    let element ← convertElement cast? value
    EvalM.store slot element
    let outcome ← body.eval
    pure (element, outcome)

theorem eval_aggregate (kind : AggregateKind) (source : BoundNode) (slot : Nat)
    (cast? : Option Cast) (body : BoundNode) (t : Ty) (span : Span) :
    BoundNode.eval ⟨.aggregate kind source slot cast? body, t, span⟩ =
      source.evalArray >>= Loop.run kind (loopRound slot cast? body) := by
  unfold BoundNode.eval
  cases cast? <;> (unfold BoundShape.eval; rfl)

/-- An aggregate that succeeds has a source of elements, over which its loop succeeds. -/
theorem eval_aggregate_eq_ok {kind : AggregateKind} {source : BoundNode} {slot : Nat}
    {cast? : Option Cast} {body : BoundNode} {t : Ty} {span : Span} {frames frames' : Frames}
    {value : Value}
    (h : BoundNode.eval ⟨.aggregate kind source slot cast? body, t, span⟩ frames =
      (.ok value, frames')) :
    ∃ elements frames₁, source.evalArray frames = (.ok elements, frames₁) ∧
      Loop.run kind (loopRound slot cast? body) elements frames₁ = (.ok value, frames') := by
  rw [eval_aggregate] at h
  exact run_bind_eq_ok h

theorem convertElement_frameless (cast? : Option Cast) (value : Value) :
    Frameless (convertElement cast? value) := by
  cases cast? with
  | none => exact frameless_ofResult (.ok value)
  | some cast => exact cast.apply_frameless value

/-- A round over `value`: converted, in whatever frames, it is the element, and the outcome is what
the body gives in frames that hold the element in the slot of the loop variable. -/
structure IsRound (slot : Nat) (cast? : Option Cast) (body : BoundNode) (value : Value)
    (round : Value × Value) : Prop where
  converted : ∀ frames, convertElement cast? value frames = (.ok round.1, frames)
  outcome : ∃ frames after : Frames,
    frames.load slot = .ok round.1 ∧ body.eval frames = (.ok round.2, after)

theorem loopRound_isRound {slot : Nat} {cast? : Option Cast} {body : BoundNode} {value : Value}
    {frames frames' : Frames} {round : Value × Value}
    (h : loopRound slot cast? body value frames = (.ok round, frames')) :
    IsRound slot cast? body value round := by
  obtain ⟨element, frames₁, hconvert, h⟩ := run_bind_eq_ok h
  obtain ⟨u, frames₂, hstore, h⟩ := run_bind_eq_ok h
  obtain ⟨outcome, frames₃, hbody, h⟩ := run_bind_eq_ok h
  cases h
  refine ⟨fun other => ?_, frames₂, frames', ?_, hbody⟩
  · obtain ⟨r, hr⟩ := convertElement_frameless cast? value
    rw [hr] at hconvert ⊢
    cases hconvert
    rfl
  · unfold EvalM.store at hstore
    split at hstore
    case h_1 stored hstored =>
      cases hstore
      exact Frames.load_store_same hstored
    case h_2 => cases hstore

/-- Selecting all from a source gives a part of its converted elements in their order, those for
which the body is true, and selecting the first from the same frames gives the first of them, or
null if there are none.  Collecting gives the value of the body for every element, in order. -/
theorem selections_agree (source : BoundNode) (slot : Nat) (cast? : Option Cast) (body : BoundNode)
    (span : Span) (frames : Frames) :
    let loop (kind : AggregateKind) (t : Ty) : BoundNode :=
      ⟨.aggregate kind source slot cast? body, t, span⟩
    (∀ t value frames', (loop .selectAll t).eval frames = (.ok value, frames') →
      ∃ elements rounds, (source.evalArray frames).1 = .ok elements ∧
        List.Forall₂ (IsRound slot cast? body) elements rounds ∧
        value = .array (Loop.selected rounds) ∧
        (Loop.selected rounds).Sublist (rounds.map (·.1)) ∧
        ∀ t', ((loop .selectFirst t').eval frames).1 = .ok ((Loop.selected rounds).headD .null)) ∧
    ∀ t value frames', (loop .collect t).eval frames = (.ok value, frames') →
      ∃ elements rounds, (source.evalArray frames).1 = .ok elements ∧
        List.Forall₂ (IsRound slot cast? body) elements rounds ∧
        value = .array (rounds.map (·.2)) ∧ (rounds.map (·.2)).length = elements.length := by
  intro loop
  have hround := fun value frames round frames' =>
    @loopRound_isRound slot cast? body value frames frames' round
  constructor
  · intro t value frames' h
    obtain ⟨elements, frames₁, hsource, hloop⟩ := eval_aggregate_eq_ok h
    obtain ⟨found, hall, rfl⟩ := run_map_eq_ok hloop
    obtain ⟨rounds, hrounds, rfl⟩ := Loop.rounds_of_selectAll hall
    refine ⟨elements, rounds, congrArg Prod.fst hsource, hrounds.forall₂ hround, rfl,
      Loop.selected_sublist rounds, fun t' => ?_⟩
    rw [eval_aggregate, run_bind, hsource]
    exact hrounds.selectFirst
  · intro t value frames' h
    obtain ⟨elements, frames₁, hsource, hloop⟩ := eval_aggregate_eq_ok h
    obtain ⟨outcomes, hall, rfl⟩ := run_map_eq_ok hloop
    obtain ⟨rounds, hrounds, rfl⟩ := Loop.rounds_of_collect hall
    have hforall := hrounds.forall₂ hround
    refine ⟨elements, rounds, congrArg Prod.fst hsource, hforall, rfl, ?_⟩
    rw [List.length_map, hforall.length_eq]

namespace Evens

def isEven : Method :=
  .native ⟨0, "even", [.primitive .long], .boolean, "Numbers", .static, none⟩ fun _ arguments =>
    match arguments with
    | [.long n] => .ok (.bool (n % 2 == 0))
    | _ => .error (.unbound "even")

/-- `int` numbers, whose loop variable is declared as a `long`. -/
def source : BoundNode :=
  ⟨.literal (.array [.int 1, .int 2, .int 4]), .array .int, .nowhere⟩

def widening : Cast := .ofImplicit .int (.primitive .long) (.widening .long) Distance.wideningStep

def body : BoundNode :=
  ⟨.methodCall isEven none [⟨.localVar "n" 0, .primitive .long, .nowhere⟩], .boolean, .nowhere⟩

def loop (kind : AggregateKind) (t : Ty) : BoundNode :=
  ⟨.aggregate kind source 0 (some widening) body, t, .nowhere⟩

end Evens

open Evens in
/-- Two and four are selected, and two is the first. -/
theorem selections_agree_evens :
    (loop .selectAll (.array (.primitive .long))).eval (Frames.single 1) =
      (.ok (.array [.long 2, .long 4]), ⟨[[.long 4]]⟩) ∧
    ((loop .selectFirst (.primitive .long)).eval (Frames.single 1)).1 = .ok (.long 2) := by
  have hall : (loop .selectAll (.array (.primitive .long))).eval (Frames.single 1) =
      (.ok (.array [.long 2, .long 4]), ⟨[[.long 4]]⟩) := rfl
  refine ⟨hall, ?_⟩
  obtain ⟨elements, rounds, -, -, hselected, -, hfirst⟩ :=
    (selections_agree source 0 (some widening) body .nowhere (.single 1)).1 _ _ _ hall
  rw [← Value.array.inj hselected] at hfirst
  exact hfirst _

end RuleExpr

import RuleExpr.Bound.Eval

/-!
# Runs of Evaluating Actions

Two ways of saying what an evaluating action does to its state.  `Keeps` is an invariant that every
run preserves, also one that fails, together with a class of errors to which the failures belong.
`Triple` relates a precondition to what holds of the value and the state when the action succeeds,
and to what holds of the error and the state when it fails.  Both carry over from the parts of an
action to the whole.  The state is any type, so that the same rules serve evaluation and recorded
evaluation.
-/

namespace RuleExpr

namespace Fallible

variable {σ α β : Type}

theorem run_bind (x : Fallible σ α) (f : α → Fallible σ β) (st : σ) :
    (x >>= f) st = match x st with
      | (.ok a, st') => f a st'
      | (.error e, st') => (.error e, st') := by
  change ExceptT.bindCont f (x st).1 (x st).2 = _
  match x st with
  | (.ok a, st') => rfl
  | (.error e, st') => rfl

/-- An action that succeeds did so part by part. -/
theorem run_bind_eq_ok {x : Fallible σ α} {f : α → Fallible σ β} {st st' : σ} {b : β}
    (h : (x >>= f) st = (.ok b, st')) :
    ∃ a st₁, x st = (.ok a, st₁) ∧ f a st₁ = (.ok b, st') := by
  rw [run_bind] at h
  split at h
  case h_1 a st₁ hx => exact ⟨a, st₁, hx, h⟩
  case h_2 => cases h

theorem run_map_eq_ok {x : Fallible σ α} {f : α → β} {st st' : σ} {b : β}
    (h : (f <$> x) st = (.ok b, st')) : ∃ a, x st = (.ok a, st') ∧ b = f a := by
  rw [map_eq_pure_bind] at h
  obtain ⟨a, st₁, hx, hpure⟩ := run_bind_eq_ok h
  cases hpure
  exact ⟨a, hx, rfl⟩

/-- Every run of the action preserves `I`, and one that fails does so with an error in `E`. -/
def Keeps (I : σ → Prop) (E : EvalError → Prop) (act : Fallible σ α) : Prop :=
  ∀ st, I st → I (act st).2 ∧ ∀ e, (act st).1 = .error e → E e

namespace Keeps

variable {I : σ → Prop} {E : EvalError → Prop}

theorem pure (a : α) : Keeps I E (Pure.pure a : Fallible σ α) := fun _ h => ⟨h, nofun⟩

theorem throw {e : EvalError} (he : E e) : Keeps I E (MonadExcept.throw e : Fallible σ α) := by
  intro st h
  refine ⟨h, ?_⟩
  rintro _ ⟨⟩
  exact he

theorem bind {x : Fallible σ α} {f : α → Fallible σ β} (hx : Keeps I E x)
    (hf : ∀ a, Keeps I E (f a)) : Keeps I E (x >>= f) := by
  intro st h
  obtain ⟨hfirst, herror⟩ := hx st h
  rw [run_bind]
  match hrun : x st with
  | (.ok a, st') =>
    rw [hrun] at hfirst
    exact hf a st' hfirst
  | (.error e, st') =>
    rw [hrun] at hfirst herror
    refine ⟨hfirst, ?_⟩
    rintro _ ⟨⟩
    exact herror e rfl

theorem map {x : Fallible σ α} (f : α → β) (hx : Keeps I E x) : Keeps I E (f <$> x) := by
  rw [map_eq_pure_bind]
  exact hx.bind fun a => pure (f a)

theorem ite {c : Prop} [Decidable c] {x y : Fallible σ α} (hx : Keeps I E x) (hy : Keeps I E y) :
    Keeps I E (if c then x else y) := by
  split
  · exact hx
  · exact hy

end Keeps

/-- From a state with `P`, the action gives a value and a state with `Q` or fails with `E`. -/
def Triple (P : σ → Prop) (act : Fallible σ α) (Q : α → σ → Prop) (E : EvalError → σ → Prop) :
    Prop :=
  ∀ st, P st → match act st with
    | (.ok a, st') => Q a st'
    | (.error e, st') => E e st'

namespace Triple

variable {P P' : σ → Prop} {Q Q' : α → σ → Prop} {R : β → σ → Prop} {E : EvalError → σ → Prop}

theorem pure {a : α} (h : ∀ st, P st → Q a st) : Triple P (Pure.pure a : Fallible σ α) Q E :=
  fun st hst => h st hst

theorem throw {e : EvalError} (h : ∀ st, P st → E e st) :
    Triple P (MonadExcept.throw e : Fallible σ α) Q E :=
  fun st hst => h st hst

theorem bind {x : Fallible σ α} {f : α → Fallible σ β} (hx : Triple P x Q E)
    (hf : ∀ a, Triple (Q a) (f a) R E) : Triple P (x >>= f) R E := by
  intro st hst
  have hfirst := hx st hst
  rw [run_bind]
  match hrun : x st with
  | (.ok a, st') =>
    rw [hrun] at hfirst
    exact hf a st' hfirst
  | (.error e, st') =>
    rw [hrun] at hfirst
    exact hfirst

theorem map {x : Fallible σ α} {f : α → β} (hx : Triple P x (fun a st => R (f a) st) E) :
    Triple P (f <$> x) R E := by
  rw [map_eq_pure_bind]
  exact hx.bind fun a => pure fun _ h => h

theorem imp {x : Fallible σ α} (hx : Triple P x Q E) (hP : ∀ st, P' st → P st)
    (hQ : ∀ a st, Q a st → Q' a st) : Triple P' x Q' E := by
  intro st hst
  have hrun := hx st (hP st hst)
  match hx' : x st with
  | (.ok a, st') =>
    rw [hx'] at hrun
    exact hQ a st' hrun
  | (.error e, st') =>
    rw [hx'] at hrun
    exact hrun

/-- What holds of the state in either case. -/
theorem state {x : Fallible σ α} {I : σ → Prop} (hx : Triple P x Q E)
    (hQ : ∀ a st, Q a st → I st) (hE : ∀ e st, E e st → I st) {st : σ} (hst : P st) :
    I (x st).2 := by
  have hrun := hx st hst
  match hx' : x st with
  | (.ok a, st') =>
    rw [hx'] at hrun
    exact hQ a st' hrun
  | (.error e, st') =>
    rw [hx'] at hrun
    exact hE e st' hrun

theorem ite {c : Prop} [Decidable c] {x y : Fallible σ α} (hx : c → Triple P x Q E)
    (hy : ¬c → Triple P y Q E) : Triple P (if c then x else y) Q E := by
  split
  case isTrue h => exact hx h
  case isFalse h => exact hy h

end Triple

end Fallible

namespace Loop

open Fallible

variable {σ : Type}

/-- A loop keeps what each of its rounds keeps. -/
theorem run_keeps {I : σ → Prop} {E : EvalError → Prop} {step : Step (Fallible σ)}
    (h : ∀ value, Keeps I E (step value)) (kind : AggregateKind) (elements : List Value) :
    Keeps I E (run kind step elements) := by
  cases kind with
  | selectAll =>
    refine Keeps.map _ ?_
    induction elements with
    | nil => exact .pure _
    | cons value rest ih => exact (h value).bind fun _ => ih.bind fun _ => .pure _
  | selectFirst =>
    change Keeps I E (selectFirst step elements)
    induction elements with
    | nil => exact .pure _
    | cons value rest ih => exact (h value).bind fun _ => .ite (.pure _) ih
  | collect =>
    refine Keeps.map _ ?_
    induction elements with
    | nil => exact .pure _
    | cons value rest ih => exact (h value).bind fun _ => ih.bind fun _ => .pure _

/-- What a loop gives when its steps answer with elements in `S` and outcomes in `T`. -/
def Gives (kind : AggregateKind) (S T : Value → Prop) (value : Value) : Prop :=
  match kind with
  | .selectAll => ∃ selected, value = .array selected ∧ ∀ element ∈ selected, S element
  | .selectFirst => value = .null ∨ S value
  | .collect => ∃ outcomes, value = .array outcomes ∧ ∀ outcome ∈ outcomes, T outcome

section Triples

variable {P : σ → Prop} {E : EvalError → σ → Prop} {S T : Value → Prop}
  {step : Step (Fallible σ)} {elements : List Value}

theorem selectAll_triple
    (h : ∀ value ∈ elements, Triple P (step value) (fun r st => (S r.1 ∧ T r.2) ∧ P st) E) :
    Triple P (selectAll step elements)
      (fun selected st => (∀ element ∈ selected, S element) ∧ P st) E := by
  induction elements with
  | nil => exact .pure fun st hst => ⟨List.forall_mem_nil _, hst⟩
  | cons value rest ih =>
    refine (h value List.mem_cons_self).bind fun r => ?_
    have hrest := ih fun other hmem => h other (List.mem_cons_of_mem _ hmem)
    rintro st ⟨⟨helement, -⟩, hst⟩
    refine (hrest.bind fun selected => .pure ?_) st hst
    rintro st ⟨hselected, hst⟩
    refine ⟨?_, hst⟩
    split
    · exact List.forall_mem_cons.2 ⟨helement, hselected⟩
    · exact hselected

/-- The first element that is selected, or null if there is none. -/
theorem selectFirst_triple
    (h : ∀ value ∈ elements, Triple P (step value) (fun r st => (S r.1 ∧ T r.2) ∧ P st) E) :
    Triple P (selectFirst step elements) (fun value st => (value = .null ∨ S value) ∧ P st) E := by
  induction elements with
  | nil => exact .pure fun st hst => ⟨.inl rfl, hst⟩
  | cons value rest ih =>
    refine (h value List.mem_cons_self).bind fun r => ?_
    refine .ite (fun _ => .pure ?_) fun _ => ?_
    · rintro st ⟨⟨helement, -⟩, hst⟩
      exact ⟨.inr helement, hst⟩
    · exact (ih fun other hmem => h other (List.mem_cons_of_mem _ hmem)).imp
        (fun st hst => hst.2) fun _ _ hvalue => hvalue

theorem collect_triple
    (h : ∀ value ∈ elements, Triple P (step value) (fun r st => (S r.1 ∧ T r.2) ∧ P st) E) :
    Triple P (collect step elements)
      (fun outcomes st => (∀ outcome ∈ outcomes, T outcome) ∧ P st) E := by
  induction elements with
  | nil => exact .pure fun st hst => ⟨List.forall_mem_nil _, hst⟩
  | cons value rest ih =>
    refine (h value List.mem_cons_self).bind fun r => ?_
    have hrest := ih fun other hmem => h other (List.mem_cons_of_mem _ hmem)
    rintro st ⟨⟨-, houtcome⟩, hst⟩
    refine (hrest.bind fun outcomes => .pure ?_) st hst
    rintro st ⟨houtcomes, hst⟩
    exact ⟨List.forall_mem_cons.2 ⟨houtcome, houtcomes⟩, hst⟩

/-- A loop gives what its kind says, if each round leads back to where it began. -/
theorem run_triple (kind : AggregateKind)
    (h : ∀ value ∈ elements, Triple P (step value) (fun r st => (S r.1 ∧ T r.2) ∧ P st) E) :
    Triple P (run kind step elements) (fun value st => Gives kind S T value ∧ P st) E := by
  cases kind with
  | selectAll =>
    refine .map ((selectAll_triple h).imp (fun _ hst => hst) ?_)
    exact fun selected _ hselected => ⟨⟨selected, rfl, hselected.1⟩, hselected.2⟩
  | selectFirst => exact selectFirst_triple h
  | collect =>
    refine .map ((collect_triple h).imp (fun _ hst => hst) ?_)
    exact fun outcomes _ houtcomes => ⟨⟨outcomes, rfl, houtcomes.1⟩, houtcomes.2⟩

end Triples

end Loop

end RuleExpr

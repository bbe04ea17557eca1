import RuleExpr.Program
import Mathlib.Order.Defs.Unbundled

/-!
# Runs of Binding Actions

How an action of the binder runs in a context, part by part.  A run that succeeds is taken apart
by `bind_eq_ok` and its relatives.  What a run does to the context, whether it succeeds or not, is
stated as a relation between the contexts before and after: `BindM.Moves R` says that an action
moves every context along `R`, and carries over from the parts of an action to the whole when `R`
is reflexive and transitive.
-/

namespace RuleExpr

namespace BindM

variable {α β : Type} {settings : BindSettings} {s s' : BindState}

theorem run_bind_of_ok {x : BindM α} {f : α → BindM β} {a : α}
    (h : x settings s = (.ok a, s')) : (x >>= f) settings s = f a settings s' := by
  change ExceptT.bindCont (fun a => f a settings) (x settings s).1 (x settings s).2 = _
  rw [h]
  rfl

theorem run_bind_of_error {x : BindM α} {f : α → BindM β} {e : BindError}
    (h : x settings s = (.error e, s')) : (x >>= f) settings s = (.error e, s') := by
  change ExceptT.bindCont (fun a => f a settings) (x settings s).1 (x settings s).2 = _
  rw [h]
  rfl

/-- An action that succeeds did so part by part. -/
theorem bind_eq_ok {x : BindM α} {f : α → BindM β} {b : β} :
    (x >>= f) settings s = (.ok b, s') ↔
      ∃ a s₁, x settings s = (.ok a, s₁) ∧ f a settings s₁ = (.ok b, s') := by
  constructor
  · intro h
    match hx : x settings s with
    | (.ok a, s₁) =>
      rw [run_bind_of_ok hx] at h
      exact ⟨a, s₁, rfl, h⟩
    | (.error e, s₁) =>
      rw [run_bind_of_error hx] at h
      cases h
  · rintro ⟨a, s₁, hx, hf⟩
    rw [run_bind_of_ok hx, hf]

theorem pure_eq_ok {a b : α} :
    (pure a : BindM α) settings s = (.ok b, s') ↔ a = b ∧ s = s' := by
  constructor
  · intro h
    cases h
    exact ⟨rfl, rfl⟩
  · rintro ⟨rfl, rfl⟩
    rfl

theorem map_eq_ok {x : BindM α} {f : α → β} {b : β} :
    (f <$> x) settings s = (.ok b, s') ↔ ∃ a, x settings s = (.ok a, s') ∧ f a = b := by
  rw [map_eq_pure_bind, bind_eq_ok]
  constructor
  · rintro ⟨a, s₁, hx, hf⟩
    obtain ⟨rfl, rfl⟩ := pure_eq_ok.1 hf
    exact ⟨a, hx, rfl⟩
  · rintro ⟨a, hx, rfl⟩
    exact ⟨a, s', hx, rfl⟩

theorem get_eq_ok {b : BindState} :
    (get : BindM BindState) settings s = (.ok b, s') ↔ b = s ∧ s' = s := by
  constructor
  · intro h
    cases h
    exact ⟨rfl, rfl⟩
  · rintro ⟨rfl, rfl⟩
    rfl

theorem read_eq_ok {b : BindSettings} :
    (read : BindM BindSettings) settings s = (.ok b, s') ↔ b = settings ∧ s' = s := by
  constructor
  · intro h
    cases h
    exact ⟨rfl, rfl⟩
  · rintro ⟨rfl, rfl⟩
    rfl

theorem ofCast_eq_ok {r : Except CastError α} {a : α} :
    (ofCast r : BindM α) settings s = (.ok a, s') ↔ r = .ok a ∧ s' = s := by
  cases r with
  | ok b =>
    constructor
    · intro h
      cases h
      exact ⟨rfl, rfl⟩
    · rintro ⟨h, rfl⟩
      cases h
      rfl
  | error e =>
    constructor
    · intro h
      cases h
    · rintro ⟨h, -⟩
      cases h

/-- The common type is that of the registry, and the context stays as it is. -/
theorem commonType_run (a b : Ty) (settings : BindSettings) (s : BindState) :
    commonType a b settings s = ((settings.registry.commonType a b).mapError .cast, s) := by
  rw [commonType, run_bind_of_ok (read_eq_ok.2 ⟨rfl, rfl⟩)]
  cases settings.registry.commonType a b <;> rfl

/-- Whether a run succeeds with an answer and a context that pass a test. -/
def answersWith (act : BindM α) (settings : BindSettings) (s : BindState)
    (test : α → BindState → Bool) : Bool :=
  match act settings s with
  | (.ok a, s') => test a s'
  | (.error _, _) => false

theorem eq_ok_of_answersWith {act : BindM α} {test : α → BindState → Bool}
    (h : answersWith act settings s test = true) :
    ∃ a s', act settings s = (.ok a, s') ∧ test a s' = true := by
  unfold answersWith at h
  split at h
  case h_1 a s' hrun => exact ⟨a, s', hrun, h⟩
  case h_2 => cases h

/-- Declares a variable in the innermost scope, whatever names are taken there. -/
def declareVar (ns name : String) (t : Ty) (s : BindState) : Option LocalVar × BindState :=
  let var : LocalVar := ⟨ns, name, t, s.nextSlot⟩
  (some var,
    { s with
      nextSlot := s.nextSlot + 1
      scopes := match s.scopes with
        | scope :: outer => (scope ++ [var]) :: outer
        | [] => [] })

/-- A name that is taken is reported, and any other one is declared. -/
theorem addVar_eq_ite (ns name : String) (t : Ty) (span : Span) :
    addVar ns name t span settings s =
      if s.declaredHere ns name then
        (do
          reportError .duplicateVariable
            ("variable '" ++ name ++ "' is already defined in this scope") span
          return none : BindM (Option LocalVar)) settings s
      else (.ok (declareVar ns name t s).1, (declareVar ns name t s).2) := by
  change (if s.declaredHere ns name then _ else _ : BindM _) settings s = _
  split <;> rfl

/-- Every run of the action, successful or not, moves the context along `R`. -/
def Moves (R : BindState → BindState → Prop) (act : BindM α) : Prop :=
  ∀ settings s, R s (act settings s).2

namespace Moves

variable {R R' : BindState → BindState → Prop}

theorem mono (hR : ∀ s s', R s s' → R' s s') {act : BindM α} (h : Moves R act) : Moves R' act :=
  fun settings s => hR _ _ (h settings s)

theorem of_run {act : BindM α} {r : Except BindError α} (h : Moves R act)
    (hrun : act settings s = (r, s')) : R s s' := by
  have := h settings s
  rwa [hrun] at this

variable [Std.Refl R]

theorem pure (a : α) : Moves R (Pure.pure a : BindM α) := fun _ s => refl_of R s

theorem throw (e : BindError) : Moves R (MonadExcept.throw e : BindM α) := fun _ s => refl_of R s

theorem get : Moves R (MonadState.get : BindM BindState) := fun _ s => refl_of R s

theorem read : Moves R (MonadReader.read : BindM BindSettings) := fun _ s => refl_of R s

theorem ofCast (r : Except CastError α) : Moves R (BindM.ofCast r) := by
  cases r with
  | ok a => exact pure a
  | error e => exact throw (.cast e)

omit [Std.Refl R] in
theorem bind [IsTrans BindState R] {x : BindM α} {f : α → BindM β} (hx : Moves R x)
    (hf : ∀ a, Moves R (f a)) : Moves R (x >>= f) := by
  intro settings s
  match h : x settings s with
  | (.ok a, s₁) =>
    rw [run_bind_of_ok h]
    exact trans_of R (hx.of_run h) (hf a settings s₁)
  | (.error e, s₁) =>
    rw [run_bind_of_error h]
    exact hx.of_run h

omit [Std.Refl R] in
theorem map {x : BindM α} {f : α → β} (hx : Moves R x) : Moves R (f <$> x) := by
  intro settings s
  have hrun : ((f <$> x) settings s).2 = (x settings s).2 := by
    rw [map_eq_pure_bind]
    match h : x settings s with
    | (.ok a, s₁) =>
      rw [run_bind_of_ok h]
      rfl
    | (.error e, s₁) => rw [run_bind_of_error h]
  rw [hrun]
  exact hx settings s

end Moves

end BindM

section

open BindM

variable {σ : BindSettings} {s s₁ : BindState} {span : Span} {act : BindM BoundNode}

/-- A node within the nesting limit is bound one level deeper. -/
theorem nested_of_lt {r : Except BindError BoundNode} (hdepth : s.depth < σ.config.maxBindDepth)
    (hact : act σ { s with depth := s.depth + 1 } = (r, s₁)) :
    nested span act σ s = (r, { s₁ with depth := s₁.depth - 1 }) := by
  rw [nested, run_bind_of_ok (read_eq_ok.2 ⟨rfl, rfl⟩), run_bind_of_ok (get_eq_ok.2 ⟨rfl, rfl⟩),
    if_pos hdepth]
  simp only [hact]

/-- At the nesting limit a node is reported, whatever it is. -/
theorem nested_of_not_lt (hdepth : ¬s.depth < σ.config.maxBindDepth) :
    nested span act σ s = errorNode .nestingTooDeep
      ("expression is nested deeper than " ++ toString σ.config.maxBindDepth ++ " levels") span
      σ s := by
  rw [nested, run_bind_of_ok (read_eq_ok.2 ⟨rfl, rfl⟩), run_bind_of_ok (get_eq_ok.2 ⟨rfl, rfl⟩),
    if_neg hdepth]

end

end RuleExpr

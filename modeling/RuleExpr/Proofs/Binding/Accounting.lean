import RuleExpr.Proofs.Binding.Conversions

/-!
# Accounting for Failures

Binding tells of a failure twice: an error is reported, and an error node is left in the tree.
`BindM.Accounts` compares the two along a run.  An action is entered with a failure or not, it may
report errors, and its answer shows a failure or not; the answer shows one exactly if there was
one before or one was reported.  Actions one after the other hand their failures on, so the
accounts of a binder follow from those of its parts.

The account of an action may have a hole: failures that were reported and that nothing shows any
more.  They are recorded as a relation `lost` between the contexts around the place where they are
lost.  No module here says where that is; only a member call has such a place.

The accounts hold in every context, also in one that binding would never arrive at.
-/

namespace RuleExpr

open BindM BindState

namespace BindState

variable {s s₁ s₂ s' : BindState}

/-- Reports are added at the end and the program stays. -/
structure Grows (s s' : BindState) : Prop where
  diagnostics : s.diagnostics <+: s'.diagnostics
  program : s'.program = s.program

theorem Grows.refl (s : BindState) : s.Grows s := ⟨List.prefix_rfl, rfl⟩

theorem Grows.trans (h : s.Grows s₁) (h' : s₁.Grows s') : s.Grows s' :=
  ⟨h.diagnostics.trans h'.diagnostics, h'.program.trans h.program⟩

theorem reports_append {new : List Diagnostic} (h : s'.diagnostics = s.diagnostics ++ new) :
    s.Reports s' ↔ new.any (·.isError) = true := by
  constructor
  · rintro ⟨added, hadded, herror⟩
    have hsame : added = new := List.append_cancel_left (hadded.symm.trans h)
    rwa [← hsame]
  · exact fun herror => ⟨new, h, herror⟩

/-- Whatever a run reports is reported by one of its parts. -/
theorem reports_iff_or (h : s.Grows s₁) (h' : s₁.Grows s') :
    s.Reports s' ↔ s.Reports s₁ ∨ s₁.Reports s' := by
  obtain ⟨first, hfirst⟩ := h.diagnostics
  obtain ⟨second, hsecond⟩ := h'.diagnostics
  have hboth : s'.diagnostics = s.diagnostics ++ (first ++ second) := by
    rw [← hsecond, ← hfirst, List.append_assoc]
  rw [reports_append hfirst.symm, reports_append hsecond.symm, reports_append hboth,
    List.any_append, Bool.or_eq_true]

theorem not_reports_of_eq (h : s'.diagnostics = s.diagnostics) : ¬s.Reports s' := by
  have hnone : s'.diagnostics = s.diagnostics ++ [] := by rw [h, List.append_nil]
  rw [reports_append hnone]
  simp

/-- A step that reports no error. -/
structure Silent (s s' : BindState) : Prop where
  grows : s.Grows s'
  not_reports : ¬s.Reports s'

instance : Std.Refl Silent := ⟨fun s => ⟨.refl s, not_reports_of_eq rfl⟩⟩

instance : IsTrans BindState Silent where
  trans _ _ _ h h' := by
    refine ⟨h.grows.trans h'.grows, ?_⟩
    rw [reports_iff_or h.grows h'.grows]
    exact not_or.2 ⟨h.not_reports, h'.not_reports⟩

/-- A step that leaves the reports as they are is silent. -/
theorem Silent.of_eq (hdiagnostics : s'.diagnostics = s.diagnostics)
    (hprogram : s'.program = s.program) : s.Silent s' where
  grows := ⟨hdiagnostics ▸ List.prefix_rfl, hprogram⟩
  not_reports := not_reports_of_eq hdiagnostics

theorem closeScope_silent (s : BindState) : s.Silent s.closeScope := by
  obtain ⟨scopes, receivers, hclosed⟩ := closeScope_eq s
  rw [hclosed]
  exact .of_eq rfl rfl

/-- Two contexts in `lost` lie between `s` and `s'`, by their reports and over one program. -/
def During (lost : BindState → BindState → Prop) (s s' : BindState) : Prop :=
  ∃ t t', s.Grows t ∧ lost t t' ∧ t'.Grows s'

variable {lost : BindState → BindState → Prop}

theorem During.after (h : During lost s₁ s') (hgrows : s.Grows s₁) : During lost s s' := by
  obtain ⟨t, t', hbefore, hlost, hafter⟩ := h
  exact ⟨t, t', hgrows.trans hbefore, hlost, hafter⟩

theorem During.before (h : During lost s s₁) (hgrows : s₁.Grows s') : During lost s s' := by
  obtain ⟨t, t', hbefore, hlost, hafter⟩ := h
  exact ⟨t, t', hbefore, hlost, hafter.trans hgrows⟩

theorem During.here (h : lost s s') : During lost s s' := ⟨s, s', .refl s, h, .refl s'⟩

/-- Between `s` and `s'`, a failure is shown exactly if there was one before or one was reported,
what is lost apart. -/
structure Balanced (lost : BindState → BindState → Prop) (before shown : Prop)
    (s s' : BindState) : Prop where
  honest : shown → before ∨ s.Reports s'
  complete : before ∨ s.Reports s' → shown ∨ During lost s s'

theorem Balanced.of_silent {before : Prop} (h : s.Silent s') : Balanced lost before before s s' :=
  ⟨.inl, fun hbefore => .inl (hbefore.resolve_right h.not_reports)⟩

theorem Balanced.trans {before middle shown : Prop} (hgrows : s.Grows s₁) (hgrows' : s₁.Grows s')
    (h : Balanced lost before middle s s₁) (h' : Balanced lost middle shown s₁ s') :
    Balanced lost before shown s s' where
  honest hshown := by
    rw [reports_iff_or hgrows hgrows', ← or_assoc]
    exact (h'.honest hshown).imp_left h.honest
  complete := by
    rw [reports_iff_or hgrows hgrows', ← or_assoc]
    rintro (hbefore | hreports)
    · rcases h.complete hbefore with hmiddle | hlost
      · exact (h'.complete (.inl hmiddle)).imp_right (·.after hgrows)
      · exact .inr (hlost.before hgrows')
    · exact (h'.complete (.inr hreports)).imp_right (·.after hgrows)

/-- Silent steps before and after do not matter. -/
theorem Balanced.around {before shown : Prop} (hbefore : s.Silent s₁) (hgrows : s₁.Grows s₂)
    (h : Balanced lost before shown s₁ s₂) (hafter : s₂.Silent s') :
    Balanced lost before shown s s' := by
  have hfirst : Balanced lost before shown s s₂ := (of_silent hbefore).trans hbefore.grows hgrows h
  exact hfirst.trans (hbefore.grows.trans hgrows) hafter.grows (of_silent hafter)

end BindState

namespace BindM

variable {α β : Type} {σ : BindSettings} {lost : BindState → BindState → Prop} {p q : Prop}
  {F : α → Prop} {G : β → Prop} {s s' : BindState}

/-- An action that is entered with a failure if `before` shows one in the answers that are
`failed`. -/
def Accounts (σ : BindSettings) (lost : BindState → BindState → Prop) (before : Prop)
    (failed : α → Prop) (act : BindM α) : Prop :=
  ∀ ⦃s : BindState⦄ ⦃r : Except BindError α⦄ ⦃s' : BindState⦄, act σ s = (r, s') →
    s.Grows s' ∧ ∀ a, r = .ok a → Balanced lost before (failed a) s s'

namespace Accounts

theorem pure {a : α} (h : F a ↔ p) : Accounts σ lost p F (Pure.pure a : BindM α) := by
  intro s r s' hrun
  cases hrun
  refine ⟨.refl s, ?_⟩
  rintro _ ⟨⟩
  rw [propext h]
  exact .of_silent (refl_of Silent s)

theorem silent {act : BindM α} (h : Moves Silent act) : Accounts σ lost p (fun _ => p) act := by
  intro s r s' hrun
  have hsilent := h.of_run hrun
  exact ⟨hsilent.grows, fun _ _ => .of_silent hsilent⟩

/-- An action between two silent steps. -/
theorem around {act : BindM α} {s₁ s₂ : BindState} {r : Except BindError α}
    (h : Accounts σ lost p F act) (hbefore : s.Silent s₁) (hrun : act σ s₁ = (r, s₂))
    (hafter : s₂.Silent s') :
    s.Grows s' ∧ ∀ a, r = .ok a → Balanced lost p (F a) s s' := by
  obtain ⟨hgrows, hbalanced⟩ := h hrun
  exact ⟨hbefore.grows.trans (hgrows.trans hafter.grows),
    fun a ha => (hbalanced a ha).around hbefore hgrows hafter⟩

/-- Accounts of two actions one after the other, with what both of them answered. -/
theorem run_bind {x : BindM α} {f : α → BindM β} {H : α → β → Prop} {r : Except BindError β}
    (hx : Accounts σ lost p F x)
    (hf : ∀ a, (∃ s s', x σ s = (.ok a, s')) → Accounts σ lost (F a) (H a) (f a))
    (hrun : (x >>= f) σ s = (r, s')) :
    s.Grows s' ∧ ∀ b, r = .ok b → ∃ a s₁, x σ s = (.ok a, s₁) ∧ f a σ s₁ = (.ok b, s') ∧
      Balanced lost p (H a b) s s' := by
  match hfirst : x σ s with
  | (.error e, s₁) =>
    rw [run_bind_of_error hfirst] at hrun
    cases hrun
    exact ⟨(hx hfirst).1, fun b hb => nomatch hb⟩
  | (.ok a, s₁) =>
    rw [run_bind_of_ok hfirst] at hrun
    obtain ⟨hgrows, hbalanced⟩ := hx hfirst
    obtain ⟨hgrows', hbalanced'⟩ := hf a ⟨s, s₁, hfirst⟩ hrun
    refine ⟨hgrows.trans hgrows', ?_⟩
    rintro b rfl
    exact ⟨a, s₁, rfl, hrun, (hbalanced a rfl).trans hgrows hgrows' (hbalanced' b rfl)⟩

/-- The second action may count on the answer being one of the first. -/
theorem bind_of_run {x : BindM α} {f : α → BindM β} (hx : Accounts σ lost p F x)
    (hf : ∀ a, (∃ s s', x σ s = (.ok a, s')) → Accounts σ lost (F a) G (f a)) :
    Accounts σ lost p G (x >>= f) := by
  intro s r s' hrun
  obtain ⟨hgrows, hbalanced⟩ := hx.run_bind hf hrun
  refine ⟨hgrows, fun b hb => ?_⟩
  obtain ⟨-, -, -, -, h⟩ := hbalanced b hb
  exact h

theorem bind {x : BindM α} {f : α → BindM β} (hx : Accounts σ lost p F x)
    (hf : ∀ a, Accounts σ lost (F a) G (f a)) : Accounts σ lost p G (x >>= f) :=
  hx.bind_of_run fun a _ => hf a

/-- An action that reports nothing may come first. -/
theorem after {x : BindM α} {f : α → BindM β} (hx : Moves Silent x)
    (hf : ∀ a, Accounts σ lost p G (f a)) : Accounts σ lost p G (x >>= f) :=
  (silent hx).bind hf

/-- What shows a failure may be said differently of the answers that the action has. -/
theorem of_answers {F' : α → Prop} {act : BindM α} (h : Accounts σ lost p F act)
    (hF : ∀ a, (∃ s s', act σ s = (.ok a, s')) → (F a ↔ F' a)) : Accounts σ lost p F' act := by
  intro s r s' hrun
  obtain ⟨hgrows, hbalanced⟩ := h hrun
  refine ⟨hgrows, ?_⟩
  rintro a rfl
  have hsame := hF a ⟨s, s', hrun⟩
  obtain ⟨honest, complete⟩ := hbalanced a rfl
  exact ⟨fun hshown => honest (hsame.2 hshown), fun hbefore => (complete hbefore).imp_left hsame.1⟩

theorem congr {F' : α → Prop} {act : BindM α} (h : Accounts σ lost p F act) (hp : p ↔ q)
    (hF : ∀ a, F a ↔ F' a) : Accounts σ lost q F' act := by
  obtain rfl : p = q := propext hp
  exact h.of_answers fun a _ => hF a

/-- A failure from elsewhere is handed on beside those of the action. -/
theorem frame {act : BindM α} (h : Accounts σ lost p F act) :
    Accounts σ lost (q ∨ p) (fun a => q ∨ F a) act := by
  intro s r s' hrun
  obtain ⟨hgrows, hbalanced⟩ := h hrun
  refine ⟨hgrows, fun a ha => ?_⟩
  have h := hbalanced a ha
  constructor
  · rw [or_assoc]
    exact Or.imp_right h.honest
  · rw [or_assoc, or_assoc]
    exact Or.imp_right h.complete

/-- As `frame`, for an action that is entered without a failure of its own. -/
theorem also {act : BindM α} (h : Accounts σ lost False F act) :
    Accounts σ lost q (fun a => q ∨ F a) act :=
  h.frame.congr (iff_of_eq (or_false q)) fun _ => Iff.rfl

/-- The first action deals with `p`, and `q` is left to the second. -/
theorem beside {x : BindM α} {f : α → BindM β} (hx : Accounts σ lost p F x)
    (hf : ∀ a, Accounts σ lost (F a ∨ q) G (f a)) : Accounts σ lost (p ∨ q) G (x >>= f) := by
  have hframe : Accounts σ lost (p ∨ q) (fun a => F a ∨ q) x :=
    hx.frame.congr or_comm fun _ => or_comm
  exact hframe.bind hf

theorem mono {lost' : BindState → BindState → Prop} {act : BindM α}
    (hlost : ∀ s s', lost s s' → lost' s s') (h : Accounts σ lost p F act) :
    Accounts σ lost' p F act := by
  intro s r s' hrun
  obtain ⟨hgrows, hbalanced⟩ := h hrun
  refine ⟨hgrows, fun a ha => ⟨(hbalanced a ha).honest, fun hbefore => ?_⟩⟩
  apply ((hbalanced a ha).complete hbefore).imp_right
  rintro ⟨t, t', hfirst, hhere, hlast⟩
  exact ⟨t, t', hfirst, hlost t t' hhere, hlast⟩

/-- What the second action does not show of the failures of the first is lost. -/
theorem bind_lost {x : BindM α} {f : α → BindM β} {L : α → β → Prop}
    (hx : Accounts σ lost p F x)
    (hf : ∀ a, Accounts σ lost (F a) (fun b => G b ∨ L a b) (f a))
    (hlost : ∀ ⦃s a s₁ b s'⦄, x σ s = (.ok a, s₁) → f a σ s₁ = (.ok b, s') → L a b → lost s s') :
    Accounts σ lost p G (x >>= f) := by
  intro s r s' hrun
  obtain ⟨hgrows, hbalanced⟩ := hx.run_bind (fun a _ => hf a) hrun
  refine ⟨hgrows, fun b hb => ?_⟩
  obtain ⟨a, s₁, hfirst, hsecond, h⟩ := hbalanced b hb
  refine ⟨fun hshown => h.honest (.inl hshown), fun hbefore => ?_⟩
  rcases h.complete hbefore with (hshown | hmissing) | hduring
  · exact .inl hshown
  · exact .inr (.here (hlost hfirst hsecond hmissing))
  · exact .inr hduring

end Accounts

end BindM

end RuleExpr

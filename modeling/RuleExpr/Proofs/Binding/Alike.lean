import RuleExpr.Proofs.MembersOfCopies
import RuleExpr.Proofs.Soundness.Trees

/-!
# Runs in Contexts That Look Alike

Binding reads of its context the program, the names and types of the variables, and the nesting
level.  It does not look at the slots of variables, at what was reported, or at which arrays were
met before: the array that is interned may be over a copy of the component that was asked for, and
copies of a type are the same to the language.  Two runs in contexts that differ in nothing else
fail alike, or end in such contexts again, with nodes of copies of one type or error nodes in both.

`BindM.Agree` relates two such runs and their answers.  The actions may differ as well, since what
comes after a child depends on how the child was bound.
-/

namespace RuleExpr

open BindM BindState
open List (Forall₂)

section Lists

variable {α β γ δ : Type} {R : α → β → Prop} {S : γ → δ → Prop} {xs : List α} {ys : List β}

theorem rel_findSome? {f : α → Option γ} {g : β → Option δ} (h : Forall₂ R xs ys)
    (hf : ∀ x y, R x y → Option.Rel S (f x) (g y)) :
    Option.Rel S (xs.findSome? f) (ys.findSome? g) := by
  induction h with
  | nil => exact .none
  | @cons x y _ _ hfirst _ ih =>
    rw [List.findSome?_cons, List.findSome?_cons]
    match f x, g y, hf x y hfirst with
    | some _, some _, hfound => exact hfound
    | none, none, _ => exact ih

theorem rel_find? {p : α → Bool} {q : β → Bool} (h : Forall₂ R xs ys)
    (hp : ∀ x y, R x y → p x = q y) : Option.Rel R (xs.find? p) (ys.find? q) := by
  induction h with
  | nil => exact .none
  | @cons x y _ _ hfirst _ ih =>
    rw [List.find?_cons, List.find?_cons, ← hp x y hfirst]
    cases p x with
    | true => exact .some hfirst
    | false => exact ih

theorem any_eq_of_rel {p : α → Bool} {q : β → Bool} (h : Forall₂ R xs ys)
    (hp : ∀ x y, R x y → p x = q y) : xs.any p = ys.any q := by
  induction h with
  | nil => rfl
  | cons hfirst _ ih => rw [List.any_cons, List.any_cons, hp _ _ hfirst, ih]

end Lists

/-- Copies of a type that are both in `O`. -/
structure Ty.Alike (O : Ty → Prop) (t t' : Ty) : Prop where
  copy : t.IsCopy t'
  left : O t
  right : O t'

theorem Ty.Alike.refl {O : Ty → Prop} {t : Ty} (h : O t) : t.Alike O t := ⟨.refl t, h, h⟩

/-- The same conversion between copies of types, with its targets in `O`. -/
structure Cast.Alike (O : Ty → Prop) (c c' : Cast) : Prop where
  copy : c.IsCopy c'
  target : c.target.Alike O c'.target

/-- Variables of one name, and of copies of a type in `O`. -/
structure LocalVar.Alike (O : Ty → Prop) (var var' : LocalVar) : Prop where
  ns : var.ns = var'.ns
  name : var.name = var'.name
  ty : var.ty.Alike O var'.ty

/-- Nodes of copies of a type in `O`, or error nodes. -/
structure BoundNode.Alike (O : Ty → Prop) (n n' : BoundNode) : Prop where
  ty : n.ty.Alike O n'.ty
  isError : n.isError = n'.isError

/-- Contexts over one program with variables that look alike, on one level of nesting. -/
structure BindState.Alike (P : Program) (O : Ty → Prop) (s s' : BindState) : Prop where
  left : s.Knows P O
  right : s'.Knows P O
  scopes : Forall₂ (Forall₂ (LocalVar.Alike O)) s.scopes s'.scopes
  receivers : Forall₂ (fun entry entry' => entry.1 = entry'.1 ∧ entry.2.Alike O entry'.2)
    s.receivers s'.receivers
  depth : s.depth = s'.depth

namespace BindState.Alike

variable {P : Program} {O : Ty → Prop} {s s' t t' : BindState}

/-- A context that was left with the variables and on the level where it was entered. -/
theorem of_eq (hs : s.Knows P O) (ht : t.Knows P O) (hscopes : t.scopes = s.scopes)
    (hreceivers : t.receivers = s.receivers) (hdepth : t.depth = s.depth) : s.Alike P O t where
  left := hs
  right := ht
  scopes := by
    rw [hscopes]
    refine List.forall₂_same.2 fun scope hscope => List.forall₂_same.2 fun var hvar => ?_
    exact ⟨rfl, rfl, .refl (hs.vars var (.inl ⟨scope, hscope, hvar⟩))⟩
  receivers := by
    rw [hreceivers]
    refine List.forall₂_same.2 fun entry hentry => ⟨rfl, rfl, rfl, .refl ?_⟩
    exact hs.vars entry.2 (.inr ⟨entry.1, hentry⟩)
  depth := hdepth.symm

variable (h : s.Alike P O s')

include h

/-- Steps that declare nothing and stay within the types. -/
theorem still (hst : s.Still t) (hst' : s'.Still t') (ht : t.Knows P O) (ht' : t'.Knows P O) :
    t.Alike P O t' where
  left := ht
  right := ht'
  scopes := by
    rw [hst.1.scopes, hst'.1.scopes]
    exact h.scopes
  receivers := by
    rw [hst.1.receivers, hst'.1.receivers]
    exact h.receivers
  depth := by rw [hst.2, hst'.2, h.depth]

theorem withDepth {depth depth' : Nat} (hdepth : depth = depth') :
    BindState.Alike P O { s with depth } { s' with depth := depth' } where
  left := h.left.withDepth depth
  right := h.right.withDepth depth'
  scopes := h.scopes
  receivers := h.receivers
  depth := hdepth

theorem findVar (ns name : String) (strict : Bool) :
    Option.Rel (LocalVar.Alike O) (s.findVar ns name strict) (s'.findVar ns name strict) := by
  refine rel_findSome? h.scopes fun scope scope' hscope => ?_
  refine rel_find? (List.forall₂_reverse_iff.2 hscope) fun var var' hvar => ?_
  rw [hvar.ns, hvar.name]

theorem hasVar (ns name : String) : s.hasVar ns name = s'.hasVar ns name :=
  isSome_eq_of_rel (h.findVar ns name true)

theorem hiddenVarName (stem : String) : s.hiddenVarName stem = s'.hiddenVarName stem := by
  have hlength : s.scopes.flatten.length = s'.scopes.flatten.length :=
    (List.rel_flatten h.scopes).length_eq
  simp only [BindState.hiddenVarName, hlength, h.hasVar]

theorem declaredHere (ns name : String) : s.declaredHere ns name = s'.declaredHere ns name := by
  unfold BindState.declaredHere
  match s.scopes, s'.scopes, h.scopes with
  | [], [], _ => rfl
  | scope :: _, scope' :: _, .cons hscope _ =>
    exact any_eq_of_rel hscope fun var var' hvar => by rw [hvar.ns, hvar.name]

/-- The receiver and the field that a name leads to. -/
theorem findReceiverField (hP : P.Uniform O) (name : String) :
    Option.Rel (fun found found' => found.1.Alike O found'.1 ∧ found.2.ty.Alike O found'.2.ty)
      (s.findReceiverField name) (s'.findReceiverField name) := by
  refine rel_findSome? (List.forall₂_reverse_iff.2 h.receivers) ?_
  rintro ⟨_, var⟩ ⟨_, var'⟩ ⟨-, hvar⟩
  have hleft : s.workspace.declarations = P.declarations := by rw [← h.left.program]; rfl
  have hright : s'.workspace.declarations = P.declarations := by rw [← h.right.program]; rfl
  have hfield := hP.field?_alike hvar.ty.left hvar.ty.right hvar.ty.copy name
  dsimp only
  rw [hleft, hright]
  match hf : P.declarations.field? var.ty name, hf' : P.declarations.field? var'.ty name,
    hfield with
  | some field, some field', .some hcopy =>
    exact .some ⟨hvar, hcopy, hP.memberField hvar.ty.left hf, hP.memberField hvar.ty.right hf'⟩
  | none, none, .none => exact .none

theorem scopeDepth : s.scopeDepth = s'.scopeDepth := h.scopes.length_eq

theorem pushScope : s.pushScope.Alike P O s'.pushScope where
  left := h.left.pushScope
  right := h.right.pushScope
  scopes := .cons .nil h.scopes
  receivers := h.receivers
  depth := h.depth

omit h in
theorem closeScope_eq_ite (s : BindState) : s.closeScope =
    if 2 ≤ s.scopeDepth then
      { s with
        scopes := s.scopes.tail
        receivers := s.receivers.filter (·.1 < s.scopeDepth) }
    else s := by
  unfold BindState.closeScope BindState.popScope
  match hs : s.scopes with
  | [] => simp [BindState.scopeDepth, hs]
  | [_] => simp [BindState.scopeDepth, hs]
  | _ :: _ :: _ => simp [BindState.scopeDepth, hs]

theorem closeScope : s.closeScope.Alike P O s'.closeScope := by
  have hleft := h.left.closeScope
  have hright := h.right.closeScope
  rw [closeScope_eq_ite s] at hleft ⊢
  rw [closeScope_eq_ite s', ← h.scopeDepth] at hright ⊢
  by_cases htwo : 2 ≤ s.scopeDepth
  · rw [if_pos htwo] at hleft hright
    rw [if_pos htwo, if_pos htwo]
    refine ⟨hleft, hright, ?_, ?_, h.depth⟩
    · match s.scopes, s'.scopes, h.scopes with
      | [], [], _ => exact .nil
      | _ :: _, _ :: _, .cons _ houter => exact houter
    · exact List.rel_filter (fun _ _ hentry => by simp only [hentry.1]) h.receivers
  · rw [if_neg htwo, if_neg htwo]
    exact h

end BindState.Alike

variable {P : Program} {O : Ty → Prop} {config : Config} {α α' β β' : Type} {R R' : α → α' → Prop}
  {S : β → β' → Prop}

/-- Both runs succeed with answers in `R`, in contexts that look alike, or both fail alike. -/
inductive BindM.Ends (P : Program) (O : Ty → Prop) (R : α → α' → Prop) :
    Except BindError α × BindState → Except BindError α' × BindState → Prop
  | ok {a : α} {a' : α'} {t t' : BindState} (ht : t.Alike P O t') (h : R a a') :
      Ends P O R (.ok a, t) (.ok a', t')
  | error (e : BindError) {t t' : BindState} : Ends P O R (.error e, t) (.error e, t')

/-- From contexts that look alike the two actions come to ends that look alike. -/
def BindM.Agree (P : Program) (O : Ty → Prop) (config : Config) (act : BindM α) (act' : BindM α')
    (R : α → α' → Prop) : Prop :=
  ∀ s s', s.Alike P O s' → Ends P O R (act (.standard config) s) (act' (.standard config) s')

namespace BindM.Agree

theorem pure {a : α} {a' : α'} (h : R a a') :
    Agree P O config (Pure.pure a) (Pure.pure a') R :=
  fun _ _ hs => .ok hs h

theorem bind {x : BindM α} {x' : BindM α'} {f : α → BindM β} {f' : α' → BindM β'}
    (hx : Agree P O config x x' R) (hf : ∀ a a', R a a' → Agree P O config (f a) (f' a') S) :
    Agree P O config (x >>= f) (x' >>= f') S := by
  intro s s' hs
  have hends := hx s s' hs
  generalize hfirst : x (.standard config) s = result at hends
  generalize hfirst' : x' (.standard config) s' = result' at hends
  cases hends with
  | @ok a a' t t' ht ha =>
    rw [run_bind_of_ok hfirst, run_bind_of_ok hfirst']
    exact hf a a' ha t t' ht
  | error e =>
    rw [run_bind_of_error hfirst, run_bind_of_error hfirst']
    exact .error e

theorem mono {x : BindM α} {x' : BindM α'} (hx : Agree P O config x x' R)
    (hR : ∀ a a', R a a' → R' a a') : Agree P O config x x' R' := by
  intro s s' hs
  have hends := hx s s' hs
  generalize x (.standard config) s = result at hends ⊢
  generalize x' (.standard config) s' = result' at hends ⊢
  cases hends with
  | ok ht ha => exact .ok ht (hR _ _ ha)
  | error e => exact .error e

theorem map {x : BindM α} {x' : BindM α'} {f : α → β} {f' : α' → β'}
    (hx : Agree P O config x x' R) (hf : ∀ a a', R a a' → S (f a) (f' a')) :
    Agree P O config (f <$> x) (f' <$> x') S := by
  rw [map_eq_pure_bind, map_eq_pure_bind]
  exact hx.bind fun a a' ha => .pure (hf a a' ha)

/-- Answers are of the types that each run keeps to. -/
theorem and_stays {x : BindM α} {x' : BindM α'} {Q : α → Prop} {Q' : α' → Prop}
    (hx : Agree P O config x x' R) (hstays : Stays P O (.standard config) x Q)
    (hstays' : Stays P O (.standard config) x' Q') :
    Agree P O config x x' fun a a' => R a a' ∧ Q a ∧ Q' a' := by
  intro s s' hs
  have hends := hx s s' hs
  generalize hrun : x (.standard config) s = result at hends
  generalize hrun' : x' (.standard config) s' = result' at hends
  cases hends with
  | ok ht ha =>
    exact .ok ht ⟨ha, (hstays.run hs.left hrun).2, (hstays'.run hs.right hrun').2⟩
  | error e => exact .error e

theorem ite {x y : BindM α} {x' y' : BindM α'} {c : Prop} [Decidable c]
    (hx : c → Agree P O config x x' R) (hy : ¬c → Agree P O config y y' R) :
    Agree P O config (if c then x else y) (if c then x' else y') R := by
  split
  case isTrue hc => exact hx hc
  case isFalse hc => exact hy hc

theorem get : Agree P O config MonadState.get MonadState.get (BindState.Alike P O) :=
  fun _ _ hs => .ok hs hs

theorem read : Agree P O config MonadReader.read MonadReader.read
    fun σ σ' => σ = .standard config ∧ σ' = .standard config :=
  fun _ _ hs => .ok hs ⟨rfl, rfl⟩

/-- Two questions to the registry that have answers alike. -/
theorem query {q : Registry → Except CastError α} {p : Registry → Except CastError α'}
    (h : ExceptRel R (q Library.registry) (p Library.registry)) :
    Agree P O config (do ofCast (q (← MonadReader.read).registry))
      (do ofCast (p (← MonadReader.read).registry)) R := by
  refine read.bind fun σ σ' ⟨hσ, hσ'⟩ s s' hs => ?_
  subst hσ hσ'
  change Ends P O R (ofCast (q Library.registry) _ s) (ofCast (p Library.registry) _ s')
  generalize q Library.registry = answer at h ⊢
  generalize p Library.registry = answer' at h ⊢
  cases h with
  | ok ha => exact .ok hs ha
  | error e => exact .error (.cast e)

/-- Steps that always succeed, declare nothing and stay within the types. -/
theorem of_stays {act : BindM α} {act' : BindM α'} {Q : α → Prop} {Q' : α' → Prop}
    (hok : ∀ s, ∃ a t, act (.standard config) s = (.ok a, t))
    (hok' : ∀ s, ∃ a t, act' (.standard config) s = (.ok a, t))
    (hstays : Stays P O (.standard config) act Q) (hstays' : Stays P O (.standard config) act' Q')
    (hstill : Moves Still act) (hstill' : Moves Still act')
    (hR : ∀ s s' a a' t t', s.Alike P O s' → act (.standard config) s = (.ok a, t) →
      act' (.standard config) s' = (.ok a', t') → Q a → Q' a' → R a a') :
    Agree P O config act act' R := by
  intro s s' hs
  obtain ⟨a, t, hrun⟩ := hok s
  obtain ⟨a', t', hrun'⟩ := hok' s'
  obtain ⟨ht, ha⟩ := hstays.run hs.left hrun
  obtain ⟨ht', ha'⟩ := hstays'.run hs.right hrun'
  rw [hrun, hrun']
  exact .ok (hs.still (hstill.of_run hrun) (hstill'.of_run hrun') ht ht')
    (hR s s' a a' t t' hs hrun hrun' ha ha')

theorem inScope {act : BindM α} {act' : BindM α'} (h : Agree P O config act act' R) :
    Agree P O config (inScope act) (inScope act') R := by
  intro s s' hs
  have hends := h _ _ hs.pushScope
  unfold BindM.inScope
  generalize act (.standard config) s.pushScope = result at hends ⊢
  generalize act' (.standard config) s'.pushScope = result' at hends ⊢
  cases hends with
  | ok ht ha => exact .ok ht.closeScope ha
  | error e => exact .error e

end BindM.Agree

variable {n n' : BoundNode} {ns ns' : List BoundNode}

theorem BoundNode.Alike.wrap {c c' : Cast} (h : n.Alike O n') (hc : c.Alike O c') :
    (n.wrap c).Alike O (n'.wrap c') := by
  unfold BoundNode.wrap
  rw [← hc.copy.isIdentity_eq]
  split
  · exact h
  · exact ⟨hc.target, rfl⟩

theorem failure_alike (h : Ty.Closed O) (message message' : String) (span span' : Span) :
    (BoundNode.failure message span).Alike O (.failure message' span') :=
  ⟨.refl (h.builtin rfl), rfl⟩

/-- Nodes that look alike one by one. -/
abbrev AllAlike (O : Ty → Prop) : List BoundNode → List BoundNode → Prop :=
  Forall₂ (BoundNode.Alike O)

namespace AllAlike

variable (h : AllAlike O ns ns')

include h

theorem types : Forall₂ (Ty.Alike O) (ns.map (·.ty)) (ns'.map (·.ty)) :=
  List.forall₂_map_left_iff.2 (List.forall₂_map_right_iff.2 (h.imp fun _ _ hn => hn.ty))

theorem copies : Forall₂ Ty.IsCopy (ns.map (·.ty)) (ns'.map (·.ty)) :=
  (types h).imp fun _ _ ht => ht.copy

theorem typed : (∀ t ∈ ns.map (·.ty), O t) ∧ ∀ t ∈ ns'.map (·.ty), O t := by
  induction h with
  | nil => exact ⟨List.forall_mem_nil _, List.forall_mem_nil _⟩
  | cons hn _ ih =>
    exact ⟨List.forall_mem_cons.2 ⟨hn.ty.left, ih.1⟩, List.forall_mem_cons.2 ⟨hn.ty.right, ih.2⟩⟩

theorem any_isError : ns.any (·.isError) = ns'.any (·.isError) :=
  any_eq_of_rel h fun _ _ hn => hn.isError

theorem wrap_zip {casts casts' : List Cast} (hcasts : Forall₂ (Cast.Alike O) casts casts') :
    AllAlike O ((ns.zip casts).map fun (n, c) => n.wrap c)
      ((ns'.zip casts').map fun (n, c) => n.wrap c) := by
  induction h generalizing casts casts' with
  | nil => exact .nil
  | cons hn _ ih =>
    cases hcasts with
    | nil => exact .nil
    | cons hc hrest => exact .cons (hn.wrap hc) (ih hrest)

end AllAlike

end RuleExpr

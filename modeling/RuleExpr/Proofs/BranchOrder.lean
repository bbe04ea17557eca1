import RuleExpr.Proofs.Binding.AlikeTrees
import RuleExpr.Proofs.Soundness.Modules
import RuleExpr.Syntax.Build

/-!
# Swapped Branches

A conditional keeps its type when its branches are swapped, in every module where types of one key
are copies of one declaration.  Two things have to be seen for that.  Each branch is bound to the
same type, up to copies, before and after the other one, as long as the other leaves no variable
behind.  And the type of two branches does not depend on their order, except in one case: where
neither branch converts to the type of the other, they share no class and several common targets are
equally near, the first of these is taken, and each order may have its own.

Where two types of one key are declared differently there is nothing to rely on: of two classes each
may be declared above the other, and then both orders keep the type of the branch that comes first.
-/

namespace RuleExpr

open BindM BindState

variable {σ : BindSettings} {s s' : BindState} {yes no : BoundNode}

section Types

variable (hr : σ.registry.Answers)

include hr

/-- Where the registry answers, a branch is converted or reported. -/
theorem coerce_ok (n : BoundNode) (t : Ty) (s : BindState) :
    ∃ n' s', coerce n t σ s = (.ok n', s') := by
  unfold coerce
  split
  · exact ⟨n, s, rfl⟩
  · obtain ⟨c?, hcast⟩ := hr.implicitCast n.ty t
    have hanswer : implicitCast n.ty t σ s = (.ok c?, s) := implicitCast_eq_ok.2 ⟨hcast, rfl⟩
    rw [run_bind_of_ok hanswer]
    cases c? with
    | some c => exact ⟨_, _, rfl⟩
    | none => exact ⟨_, _, rfl⟩

theorem coerceBoth_ty (yes no : BoundNode) (t : Ty) (s : BindState) :
    ∃ u s', coerceBoth yes no t σ s = (.ok u, s') ∧ u.ty = t := by
  obtain ⟨yes', s₁, hyes⟩ := coerce_ok hr yes t s
  obtain ⟨no', s₂, hno⟩ := coerce_ok hr no t s₁
  refine ⟨⟨yes', no', t⟩, s₂, ?_, rfl⟩
  rw [coerceBoth, run_bind_of_ok hyes, run_bind_of_ok hno]
  rfl

theorem widenedTo_ty (yes no : BoundNode) (common : Option Ty) (s : BindState) :
    ∃ u? s', widenedTo yes no common σ s = (.ok u?, s') ∧ u?.map (·.ty) = common.or
      (if σ.config.wideningFailure = .keepBranches then some .object else none) := by
  cases common with
  | some t =>
    obtain ⟨u, s', hboth, rfl⟩ := coerceBoth_ty hr yes no t s
    exact ⟨some u, s', map_eq_ok.2 ⟨u, hboth, rfl⟩, rfl⟩
  | none =>
    rw [widenedTo, run_bind_of_ok (read_eq_ok.2 ⟨rfl, rfl⟩)]
    cases σ.config.wideningFailure with
    | error => exact ⟨none, s, rfl, rfl⟩
    | keepBranches => exact ⟨_, _, rfl, rfl⟩

theorem widenBoth_ty (yes no : BoundNode) (s : BindState) :
    (widenBoth yes no σ s).1.map (Option.map (·.ty)) =
      (widenedType? σ.registry σ.config.wideningFailure yes.ty no.ty).mapError .cast := by
  unfold widenedType?
  cases hsuperclass : commonSuperclass yes.ty no.ty with
  | some t =>
    rw [widenBoth_of_superclass hsuperclass]
    obtain ⟨u?, s', hrun, hty⟩ := widenedTo_ty hr yes no (some t) s
    rw [hrun]
    exact congrArg Except.ok hty
  | none =>
    rw [widenBoth_of_no_superclass hsuperclass]
    match σ.registry.commonType yes.ty no.ty, commonType_run yes.ty no.ty σ s with
    | .error e, hfails =>
      rw [run_bind_of_error hfails]
      rfl
    | .ok common, hanswer =>
      obtain ⟨u?, s', hrun, hty⟩ := widenedTo_ty hr yes no common s
      rw [run_bind_of_ok hanswer, hrun]
      refine (congrArg Except.ok hty).trans ?_
      cases common with
      | some t => rfl
      | none => cases σ.config.wideningFailure <;> rfl

/-- What becomes of two branches depends on their types alone. -/
theorem unify_ty (yes no : BoundNode) (s : BindState) :
    (unify yes no σ s).1.map (Option.map (·.ty)) =
      (branchType? σ.registry σ.config.wideningFailure yes.ty no.ty).mapError .cast := by
  unfold unify branchType?
  split
  · rfl
  split
  · obtain ⟨u, s', hrun, hty⟩ := coerceBoth_ty hr yes no
      (if yes.ty.isNull then no.ty else yes.ty).box s
    rw [run_bind_of_ok hrun]
    exact congrArg (fun t => Except.ok (some t)) hty
  obtain ⟨forward, hforward⟩ := hr.implicitCast yes.ty no.ty
  obtain ⟨backward, hbackward⟩ := hr.implicitCast no.ty yes.ty
  have hthere : implicitCast yes.ty no.ty σ s = (.ok forward, s) :=
    implicitCast_eq_ok.2 ⟨hforward, rfl⟩
  have hback : implicitCast no.ty yes.ty σ s = (.ok backward, s) :=
    implicitCast_eq_ok.2 ⟨hbackward, rfl⟩
  rw [run_bind_of_ok hthere, run_bind_of_ok hback, hforward, hbackward]
  match forward, backward with
  | some f, some b =>
    change Except.map _ ((if b.distance < f.distance then _ else _ : BindM _) σ s).1 =
      Except.ok (some (if b.distance < f.distance then no.ty else yes.ty))
    split <;> rfl
  | some f, none | none, some b => rfl
  | none, none => exact widenBoth_ty hr yes no s

end Types

/-- A conditional with two branches. -/
def BoundNode.IsConditional (n : BoundNode) : Prop :=
  ∃ condition yes no, n.shape = .conditional condition yes (some no)

/-- What a conditional of branches with a common type, or without one, is bound to. -/
inductive BroughtTo : Except CastError (Option Ty) → Except BindError BoundNode → Prop
  | nothing {n : BoundNode} (hn : n.isError) : BroughtTo (.ok none) (.ok n)
  | type {n : BoundNode} (hn : n.IsConditional) : BroughtTo (.ok (some n.ty)) (.ok n)
  | failure (e : CastError) : BroughtTo (.error e) (.error (.cast e))

/-- How a conditional of bound parts comes out. -/
inductive BranchOutcome (σ : BindSettings) (condition yes no : BoundNode) :
    Except BindError BoundNode → Prop
  | poisoned {n : BoundNode} (hparts : (condition.isError || yes.isError || no.isError) = true)
      (hn : n.isError) : BranchOutcome σ condition yes no (.ok n)
  | bound {result : Except BindError BoundNode}
      (hparts : (condition.isError || yes.isError || no.isError) = false)
      (h : BroughtTo (branchType? σ.registry σ.config.wideningFailure yes.ty no.ty) result) :
      BranchOutcome σ condition yes no result

theorem eq_ok_of_mapError {ε ε' α : Type} {x : Except ε α} {f : ε → ε'} {a : α}
    (h : x.mapError f = .ok a) : x = .ok a := by
  cases x with
  | error => cases h
  | ok => exact congrArg Except.ok (Except.ok.inj h)

theorem exists_error_of_mapError {ε ε' α : Type} {x : Except ε α} {f : ε → ε'} {e' : ε'}
    (h : x.mapError f = .error e') : ∃ e, x = .error e ∧ f e = e' := by
  cases x with
  | error e => exact ⟨e, rfl, Except.error.inj h⟩
  | ok => cases h

theorem conditional_branchOutcome (hr : σ.registry.Answers) (node : SyntaxNode)
    (condition yes no : BoundNode) (s : BindState) :
    BranchOutcome σ condition yes no (conditional node condition yes (some no) σ s).1 := by
  unfold conditional
  split
  case isTrue hcondition =>
    exact .poisoned (by rw [hcondition]; rfl) hcondition
  case isFalse hcondition =>
  rw [Option.any_some]
  have hparts : (condition.isError || yes.isError || no.isError) =
      (yes.isError || no.isError) := by
    rw [Bool.not_eq_true] at hcondition
    rw [hcondition, Bool.false_or]
  split
  case isTrue hbranches =>
    exact .poisoned (hparts.trans hbranches) rfl
  case isFalse hbranches =>
  rw [Bool.not_eq_true] at hbranches
  refine .bound (hparts.trans hbranches) ?_
  have htype := unify_ty hr yes no s
  dsimp only
  match hunify : unify yes no σ s with
  | (.ok u?, s₁) =>
    rw [hunify] at htype
    rw [run_bind_of_ok hunify, eq_ok_of_mapError htype.symm]
    cases u? with
    | some u =>
      have hn : BoundNode.IsConditional
          ⟨.conditional condition u.yes (some u.no), u.ty, node.span⟩ :=
        ⟨condition, u.yes, u.no, rfl⟩
      exact .type hn
    | none => exact .nothing rfl
  | (.error e, s₁) =>
    rw [hunify] at htype
    obtain ⟨failure, hfailure, rfl⟩ := exists_error_of_mapError htype.symm
    rw [run_bind_of_error hunify, hfailure]
    exact .failure failure

section Swap

variable {O : Ty → Prop} {config : Config} {a b : Ty} {condition yes' no' : BoundNode}
  {result result' : Except BindError BoundNode}

/-- Conditionals of branches of copies of two types, in either order. -/
theorem BranchOutcome.swap (hO : Ty.Uniform O) (ha : O a) (hb : O b) (hyes : a.IsCopy yes.ty)
    (hyes' : a.IsCopy yes'.ty) (hno : b.IsCopy no.ty) (hno' : b.IsCopy no'.ty)
    (herror : yes.isError = yes'.isError) (herror' : no.isError = no'.isError)
    (h : BranchOutcome (.standard config) condition yes no result)
    (h' : BranchOutcome (.standard config) condition no' yes' result') :
    result = .error (.cast .overflow) ∧ result' = .error (.cast .overflow) ∨
      ∃ n n', result = .ok n ∧ result' = .ok n' ∧
        (n.isError ∧ n'.isError ∨ n.IsConditional ∧ n'.IsConditional ∧
          (n.ty.IsCopy n'.ty ∨ UndecidedCopies Library.registry a b n.ty n'.ty)) := by
  have hparts : (condition.isError || no'.isError || yes'.isError) =
      (condition.isError || yes.isError || no.isError) := by
    rw [herror, herror', Bool.or_assoc, Bool.or_assoc, Bool.or_comm no'.isError]
  have hswap := hO.branchType?_swap (BindSettings.standard config).config.wideningFailure ha hb
    hyes hyes' hno hno'
  -- What is an error in one order is one in the other, so only the types can differ.
  cases h with
  | poisoned herrors hn =>
    cases h' with
    | poisoned _ hn' => exact .inr ⟨_, _, rfl, rfl, .inl ⟨hn, hn'⟩⟩
    | bound hbound =>
      rw [hparts, herrors] at hbound
      cases hbound
  | bound hbound h =>
    cases h' with
    | poisoned herrors =>
      rw [hparts, hbound] at herrors
      cases herrors
    | bound _ h' =>
      replace h : BroughtTo (branchType? Library.registry
        (BindSettings.standard config).config.wideningFailure yes.ty no.ty) result := h
      replace h' : BroughtTo (branchType? Library.registry
        (BindSettings.standard config).config.wideningFailure no'.ty yes'.ty) result' := h'
      obtain ⟨ht, hu⟩ | ⟨t?, u?, ht, hu, hsame⟩ := hswap
      · rw [ht] at h
        rw [hu] at h'
        cases h
        cases h'
        exact .inl ⟨rfl, rfl⟩
      · rw [ht] at h
        rw [hu] at h'
        refine .inr ?_
        obtain hsame | ⟨t, u, rfl, rfl, hundecided⟩ := hsame
        · match t?, u?, hsame, h, h' with
          | none, none, .none, .nothing hn, .nothing hn' => exact ⟨_, _, rfl, rfl, .inl ⟨hn, hn'⟩⟩
          | some _, some _, .some hcopy, .type hn, .type hn' =>
            exact ⟨_, _, rfl, rfl, .inr ⟨hn, hn', .inl hcopy⟩⟩
        · match h, h' with
          | .type hn, .type hn' => exact ⟨_, _, rfl, rfl, .inr ⟨hn, hn', .inr hundecided⟩⟩

end Swap

theorem typesOnly_uniform {own : List Ty}
    (hown : ∀ t ∈ own, t.isDeclared ∧ ∀ u ∈ t.supers, Ty.Over own u)
    (hkeys : ((Ty.builtins ++ own).map Ty.key).Nodup) :
    (typesOnly own).program.Uniform (Ty.Over own) where
  toTypesIn := typesOnly_typesIn hown
  isCopy ht hu hkey := by
    rw [Ty.Over.eq_of_key hkeys ht hu hkey]
    exact .refl _
  members ht hu hkey := by
    rw [Ty.Over.eq_of_key hkeys ht hu hkey]
    exact .refl _

/-! ## Branches in either order -/

/-- A ternary of which the parts are known. -/
theorem bind_ternary_branchOutcome (hr : σ.registry.Answers) {text? : Option String}
    {c x y : SyntaxNode} {span : Span} {condition : BoundNode} {s₁ s₂ s₃ : BindState}
    (hdepth : s.depth < σ.config.maxBindDepth)
    (hc : bindCondition ⟨c, bind c⟩ σ { s with depth := s.depth + 1 } = (.ok condition, s₁))
    (hx : bind x σ s₁ = (.ok yes, s₂)) (hy : bind y σ s₂ = (.ok no, s₃)) :
    BranchOutcome σ condition yes no (bind ⟨.ternary, text?, [c, x, y], span⟩ σ s).1 := by
  match hact : bindConditional ⟨.ternary, text?, [c, x, y], span⟩
      [⟨c, bind c⟩, ⟨x, bind x⟩, ⟨y, bind y⟩] σ { s with depth := s.depth + 1 } with
  | (r, s₄) =>
    have hrun : (bind ⟨.ternary, text?, [c, x, y], span⟩ σ s).1 = r := by
      unfold bind
      exact congrArg Prod.fst (nested_of_lt hdepth hact)
    rw [bindConditional, run_bind_of_ok hc, run_bind_of_ok hx, run_bind_of_ok hy] at hact
    have houtcome :=
      conditional_branchOutcome hr ⟨.ternary, text?, [c, x, y], span⟩ condition yes no s₃
    rwa [hact, ← hrun] at houtcome

section Branches

variable {P : Program} {O : Ty → Prop} {config : Config} {t : BindState}

/-- The context that the branches find, after the condition and one level down. -/
theorem bindCondition_context {c : SyntaxNode} {condition : BoundNode} (hP : P.TypesIn O)
    (hs : s.Knows P O) (hscoped : s.WellScoped)
    (hc : bindCondition ⟨c, bind c⟩ (.standard config) { s with depth := s.depth + 1 } =
      (.ok condition, t)) : t.Knows P O ∧ t.WellScoped := by
  have hσ := hP.standard config
  have hdeeper : BindState.WellScoped { s with depth := s.depth + 1 } :=
    ⟨hscoped.scopes, hscoped.receivers⟩
  have hrestored := (bindCondition_restored (bind_restored c)).of_run hc
  exact ⟨((bindCondition_stays hσ (bind_stays hσ c)).run (hs.withDepth _) hc).1,
    (hrestored.1 hdeeper).wellScoped hdeeper⟩

/-- What is bound without leaving a variable behind leaves a context that looks alike. -/
theorem bind_leaves_alike {x : SyntaxNode} {n : BoundNode} (hP : P.TypesIn O) (hs : s.Knows P O)
    (hscoped : s.WellScoped) (hx : bind x (.standard config) s = (.ok n, t))
    (hscopes : t.scopes = s.scopes) : s.Alike P O t := by
  have ht := ((bind_stays (hP.standard config) x).run hs hx).1
  have hreceivers := (((bind_restored x).of_run hx).1 hscoped).receivers
  exact .of_eq hs ht hscopes hreceivers ((bind_restored x).of_run hx).2

/-- Bound again in a context that looks alike, a tree has a node that looks alike. -/
theorem bind_again {x : SyntaxNode} {n : BoundNode} {s' t : BindState} (hP : P.Uniform O)
    (hs : s.Alike P O s') (hx : bind x (.standard config) s = (.ok n, t)) :
    ∃ n' t', bind x (.standard config) s' = (.ok n', t') ∧ n.Alike O n' := by
  have hagree : Agree P O config (bind x) (bind x) (BoundNode.Alike O) := bind_agrees hP x
  have hends := hagree s s' hs
  rw [hx] at hends
  match hx' : bind x (.standard config) s', hends with
  | (.ok n', t'), .ok _ hn => exact ⟨n', t', rfl, hn⟩

/-- Both orders of two branches that leave no variable behind are bound, both to error nodes or both
to conditionals, and these are of copies of one type unless it is undecided: then each is of a copy
of one of the nearest common targets.  They are not bound where the distances to a common target do
not fit, and then this is so in both orders. -/
theorem swapped_branches_keep_type (hP : P.Uniform O) (hs : s.Knows P O) (hscoped : s.WellScoped)
    {c x y : SyntaxNode} {condition nx ny : BoundNode} {s₁ s₂ s₂' : BindState}
    (hc : bindCondition ⟨c, bind c⟩ (.standard config) { s with depth := s.depth + 1 } =
      (.ok condition, s₁))
    (hx : bind x (.standard config) s₁ = (.ok nx, s₂)) (hx' : s₂.scopes = s₁.scopes)
    (hy : bind y (.standard config) s₁ = (.ok ny, s₂')) (hy' : s₂'.scopes = s₁.scopes)
    (text? text?' : Option String) (span span' : Span) :
    let there := (bind ⟨.ternary, text?, [c, x, y], span⟩ (.standard config) s).1
    let back := (bind ⟨.ternary, text?', [c, y, x], span'⟩ (.standard config) s).1
    there = .error (.cast .overflow) ∧ back = .error (.cast .overflow) ∨
      ∃ n n', there = .ok n ∧ back = .ok n' ∧
        (n.isError ∧ n'.isError ∨ n.IsConditional ∧ n'.IsConditional ∧
          (n.ty.IsCopy n'.ty ∨ UndecidedCopies Library.registry nx.ty ny.ty n.ty n'.ty)) := by
  intro there back
  by_cases hdepth : s.depth < (BindSettings.standard config).config.maxBindDepth
  case neg =>
    have hdeep (node : SyntaxNode) :
        ∃ n, (bind node (.standard config) s).1 = .ok n ∧ n.isError := by
      obtain ⟨kind, text?, children, span⟩ := node
      unfold bind
      rw [nested_of_not_lt hdepth]
      exact ⟨_, rfl, rfl⟩
    obtain ⟨n, hn, herror⟩ := hdeep ⟨.ternary, text?, [c, x, y], span⟩
    obtain ⟨n', hn', herror'⟩ := hdeep ⟨.ternary, text?', [c, y, x], span'⟩
    exact .inr ⟨n, n', hn, hn', .inl ⟨herror, herror'⟩⟩
  obtain ⟨hs₁, hscoped₁⟩ := bindCondition_context hP.toTypesIn hs hscoped hc
  -- Each branch finds the context of the other order, since the other branch declares nothing.
  have hafter := bind_leaves_alike hP.toTypesIn hs₁ hscoped₁ hx hx'
  have hafter' := bind_leaves_alike hP.toTypesIn hs₁ hscoped₁ hy hy'
  obtain ⟨no, s₃, hno, hsecond⟩ := bind_again hP hafter hy
  obtain ⟨yes', s₃', hyes', hfirst⟩ := bind_again hP hafter' hx
  have hr := Library.registry_answers
  exact BranchOutcome.swap hP.types hfirst.ty.left hsecond.ty.left (.refl _) hfirst.ty.copy
    hsecond.ty.copy (.refl _) hfirst.isError hsecond.isError.symm
    (bind_ternary_branchOutcome hr hdepth hc hx hno)
    (bind_ternary_branchOutcome hr hdepth hc hy hyes')

end Branches

namespace Documents

def printable : Ty := .interface 0 ⟨"rules", "Printable"⟩ []

def payable : Ty := .interface 1 ⟨"rules", "Payable"⟩ []

def invoice : Ty := .record 2 ⟨"rules", "Invoice"⟩ [printable, payable]

def receipt : Ty := .record 3 ⟨"rules", "Receipt"⟩ [payable, printable]

def types : List Ty := [printable, payable, invoice, receipt]

theorem distinctKeys : ((Ty.builtins ++ types).map Ty.key).Nodup := by decide +kernel

theorem uniform : (typesOnly types).program.Uniform (Ty.Over types) := by
  have hown {t : Ty} (h : t ∈ types) (harray : t.isArray = false) : Ty.Over types t :=
    Ty.over_of_mem (List.mem_append_right _ h) harray
  have hprintable : Ty.Over types printable := hown (by simp [types]) rfl
  have hpayable : Ty.Over types payable := hown (by simp [types]) rfl
  refine typesOnly_uniform ?_ distinctKeys
  have hinterface {name : QName} {number : Nat} : (Ty.interface number name []).isDeclared ∧
      ∀ u ∈ (Ty.interface number name []).supers, Ty.Over types u := ⟨rfl, List.forall_mem_nil _⟩
  refine List.forall_mem_cons.2 ⟨hinterface, List.forall_mem_cons.2 ⟨hinterface, ?_⟩⟩
  refine List.forall_mem_cons.2 ⟨⟨rfl, ?_⟩, List.forall_mem_singleton.2 ⟨rfl, ?_⟩⟩
  · exact List.forall_mem_cons.2 ⟨hprintable, List.forall_mem_singleton.2 hpayable⟩
  · exact List.forall_mem_cons.2 ⟨hpayable, List.forall_mem_singleton.2 hprintable⟩

end Documents

/-- The expression `null`, as a value of a type. -/
def nullAs (name : String) : SyntaxNode := .cast (.typeName name) .null

/-- Whether there is one scope and no variable. -/
def BindState.isBare (s : BindState) : Bool := s.scopes matches [[]]

theorem BindState.scopes_of_isBare (h : s.isBare) : s.scopes = [[]] := by
  unfold isBare at h
  split at h
  · assumption
  · cases h

open Documents in
/-- A class and an interface of it, as branches in either order. -/
theorem swapped_branches_keep_type_invoice :
    let s := typesOnly types
    let x := nullAs "Invoice"
    let y := nullAs "Printable"
    s.program.Uniform (Ty.Over types) ∧ ∃ n n',
      (bind (.ternary (.boolean true) x y) (.standard .standard) s).1 = .ok n ∧
      (bind (.ternary (.boolean true) y x) (.standard .standard) s).1 = .ok n' ∧
      n.IsConditional ∧ n'.IsConditional ∧ n.ty.IsCopy n'.ty := by
  intro s x y
  let σ := BindSettings.standard .standard
  -- The branches leave the one scope empty, and the first converts to the type of the second.
  have hparts : answersWith (bindCondition ⟨.boolean true, bind (.boolean true)⟩) σ
      { s with depth := s.depth + 1 } (fun _ s₁ => s₁.isBare &&
        answersWith (bind x) σ s₁ fun nx s₂ => s₂.isBare &&
          answersWith (bind y) σ s₁ fun ny s₂' => s₂'.isBare &&
            (Library.registry.implicitCast nx.ty ny.ty).toOption.join.isSome) = true := by
    decide +kernel
  have hwhole : answersWith (bind (.ternary (.boolean true) x y)) σ s (fun n _ => !n.isError) =
      true := by
    decide +kernel
  obtain ⟨condition, s₁, hc, hparts⟩ := eq_ok_of_answersWith hparts
  obtain ⟨hbare, hparts⟩ := Bool.and_eq_true_iff.1 hparts
  obtain ⟨nx, s₂, hx, hparts⟩ := eq_ok_of_answersWith hparts
  obtain ⟨hbareX, hparts⟩ := Bool.and_eq_true_iff.1 hparts
  obtain ⟨ny, s₂', hy, hparts⟩ := eq_ok_of_answersWith hparts
  obtain ⟨hbareY, hcast⟩ := Bool.and_eq_true_iff.1 hparts
  obtain ⟨m, u, hrun, hbound⟩ := eq_ok_of_answersWith hwhole
  have hkeep := swapped_branches_keep_type uniform
    (typesOnly_knows types _) (start_wellScoped _ _) hc
    hx ((scopes_of_isBare hbareX).trans (scopes_of_isBare hbare).symm)
    hy ((scopes_of_isBare hbareY).trans (scopes_of_isBare hbare).symm) none none .nowhere .nowhere
  refine ⟨uniform, ?_⟩
  obtain ⟨hfails, -⟩ | ⟨n, n', hn, hn', hkeep⟩ := hkeep
  · cases (congrArg Prod.fst hrun).symm.trans hfails
  refine ⟨n, n', hn, hn', ?_⟩
  obtain ⟨herror, -⟩ | ⟨hshape, hshape', hsame | ⟨v, w, -, -, hundecided⟩⟩ := hkeep
  · obtain rfl : m = n := Except.ok.inj ((congrArg Prod.fst hrun).symm.trans hn)
    rw [herror] at hbound
    cases hbound
  · exact ⟨hshape, hshape', hsame⟩
  · rw [hundecided.forward] at hcast
    cases hcast

namespace Versions

def draft : Ty := .record 0 ⟨"rules", "Draft"⟩ [.record 1 ⟨"rules", "Final"⟩ []]

def final : Ty := .record 2 ⟨"rules", "Final"⟩ [.record 3 ⟨"rules", "Draft"⟩ []]

end Versions

/-- With `null` as values of two types, the first of them for the case that the condition holds, a
ternary is a conditional of the type with the key.  Nothing is reported, and nothing declared. -/
def JoinsAs (types : List Ty) (yes no : String) (key : TypeKey) : Prop :=
  ∃ n s', bind (.ternary (.boolean true) (nullAs yes) (nullAs no)) (.standard .standard)
      (typesOnly types) = (.ok n, s') ∧
    n.IsConditional ∧ n.ty.key = key ∧ s'.diagnostics = [] ∧ s'.scopes = [[]]

theorem joinsAs_of_answersWith {types : List Ty} {yes no : String} {key : TypeKey}
    (h : answersWith (bind (.ternary (.boolean true) (nullAs yes) (nullAs no)))
      (.standard .standard) (typesOnly types) (fun n s' =>
        (n.shape matches .conditional _ _ (some _)) && n.ty.key = key && s'.diagnostics.isEmpty &&
          s'.isBare) = true) : JoinsAs types yes no key := by
  obtain ⟨n, s', hrun, htest⟩ := eq_ok_of_answersWith h
  simp only [Bool.and_eq_true, decide_eq_true_eq, List.isEmpty_iff] at htest
  obtain ⟨⟨⟨hshape, hkey⟩, hdiagnostics⟩, hbare⟩ := htest
  refine ⟨n, s', hrun, ?_, hkey, hdiagnostics, scopes_of_isBare hbare⟩
  split at hshape
  case h_1 condition yes no heq => exact ⟨condition, yes, no, heq⟩
  case h_2 => cases hshape

open Documents Versions in
/-- Two interfaces are equally near to two classes that name them in different orders, and the type
is the one that the first branch names first.  Two classes, each above one with the key of the
other, convert to each other at the same cost, and the type is that of the first branch. -/
theorem swapped_branches_change_type :
    (JoinsAs types "Invoice" "Receipt" printable.key ∧
      JoinsAs types "Receipt" "Invoice" payable.key ∧ printable.key ≠ payable.key) ∧
    (JoinsAs [draft, final] "Draft" "Final" draft.key ∧
      JoinsAs [draft, final] "Final" "Draft" final.key ∧ draft.key ≠ final.key) ∧
    ∀ own ∈ [types, [draft, final]],
      own.foldlM (fun m t => Prod.snd <$> m.addType .empty t) (.empty "Rules" "rules" 0) =
        Except.ok (RuleModule.ofTypes own) := by
  refine ⟨⟨?_, ?_, by decide⟩, ⟨?_, ?_, by decide⟩, ?_⟩
  · exact joinsAs_of_answersWith (by decide +kernel)
  · exact joinsAs_of_answersWith (by decide +kernel)
  · exact joinsAs_of_answersWith (by decide +kernel)
  · exact joinsAs_of_answersWith (by decide +kernel)
  · exact List.forall_mem_cons.2 ⟨rfl, List.forall_mem_singleton.2 rfl⟩

end RuleExpr

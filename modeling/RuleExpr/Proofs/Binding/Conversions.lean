import RuleExpr.Proofs.Binding.Elaboration
import RuleExpr.Proofs.Cast.Registry
import RuleExpr.Proofs.Overload

/-!
# Conversions that Binding Inserts

What the actions answer that run after the children of a node are bound: conversions to a type
that is asked for, branches brought to one type, operands lifted and arguments converted for a
selected method.  Each of them converts nodes in the sense of `Converted` or reports an error.
-/

namespace RuleExpr

open BindM BindState

variable {σ : BindSettings} {s s' : BindState}

theorem reportError_reports {code : Code} {message : String} {span : Span} {u : Unit}
    (hrun : reportError code message span σ s = (.ok u, s')) : s.Reports s' := by
  cases hrun
  exact ⟨_, rfl, rfl⟩

theorem errorNode_reports {code : Code} {message : String} {span : Span} {n : BoundNode}
    (hrun : errorNode code message span σ s = (.ok n, s')) : n.isError ∧ s.Reports s' := by
  obtain ⟨u, s₁, hreport, hpure⟩ := bind_eq_ok.1 hrun
  obtain ⟨rfl, rfl⟩ := pure_eq_ok.1 hpure
  exact ⟨rfl, reportError_reports hreport⟩

theorem malformed_reports {node : SyntaxNode} {arity : Arity} {n : BoundNode}
    (hrun : malformed node arity σ s = (.ok n, s')) : n.isError ∧ s.Reports s' :=
  errorNode_reports hrun

/-- A node wrapped in the cast that was found for it is converted. -/
theorem wrap_converted {r : Registry} {b : BoundNode} {t : Ty} {cast : Cast}
    (h : r.implicitCast b.ty t = .ok (some cast)) : Converted r t b (b.wrap cast) := by
  rcases Registry.implicitCast_eq_some h with ⟨hkey, rfl⟩ | hcast
  · exact .same hkey
  · exact .cast hcast

theorem implicitCast_eq_ok {a b : Ty} {cast? : Option Cast} :
    BindM.implicitCast a b σ s = (.ok cast?, s') ↔
      σ.registry.implicitCast a b = .ok cast? ∧ s' = s := by
  unfold BindM.implicitCast
  rw [bind_eq_ok]
  constructor
  · rintro ⟨settings, s₁, hread, hcast⟩
    obtain ⟨rfl, rfl⟩ := read_eq_ok.1 hread
    exact ofCast_eq_ok.1 hcast
  · rintro ⟨hcast, rfl⟩
    exact ⟨σ, s', rfl, ofCast_eq_ok.2 ⟨hcast, rfl⟩⟩

theorem castBetween_eq_ok {a b : Ty} {cast? : Option Cast}
    (hrun : castBetween a b σ s = (.ok cast?, s')) :
    σ.registry.cast a b = .ok cast? ∧ s' = s := by
  obtain ⟨settings, s₁, hread, hcast⟩ := bind_eq_ok.1 hrun
  obtain ⟨rfl, rfl⟩ := read_eq_ok.1 hread
  exact ofCast_eq_ok.1 hcast

/-- A node is converted, or replaced by an error node that was reported. -/
theorem coerce_converts {b c : BoundNode} {t : Ty} (hb : b.isError = false)
    (hrun : coerce b t σ s = (.ok c, s')) :
    Converted σ.registry t b c ∧ (c.isError → s.Reports s') := by
  unfold coerce at hrun
  split at hrun
  case isTrue hsame =>
    obtain ⟨rfl, rfl⟩ := pure_eq_ok.1 hrun
    rw [hb, Bool.false_or, decide_eq_true_iff] at hsame
    exact ⟨.same hsame, fun hc => by simp [hb] at hc⟩
  case isFalse =>
    rw [bind_eq_ok] at hrun
    obtain ⟨cast?, s₁, hcast, hrun⟩ := hrun
    rw [implicitCast_eq_ok] at hcast
    obtain ⟨hcast, rfl⟩ := hcast
    split at hrun
    · obtain ⟨rfl, rfl⟩ := pure_eq_ok.1 hrun
      refine ⟨wrap_converted hcast, fun hc => ?_⟩
      unfold BoundNode.wrap at hc
      split at hc
      · simp [hb] at hc
      · cases hc
    · obtain ⟨hc, hreports⟩ := errorNode_reports hrun
      exact ⟨.failed hc, fun _ => hreports⟩

theorem asCondition_converts {b c : BoundNode} (hb : b.isError = false)
    (hrun : asCondition b σ s = (.ok c, s')) :
    Converted σ.registry .boolean b c ∧ (c.isError → s.Reports s') := by
  unfold asCondition at hrun
  rw [hb] at hrun
  split at hrun
  case isTrue h => cases h
  split at hrun
  · exact coerce_converts hb hrun
  · obtain ⟨hc, hreports⟩ := errorNode_reports hrun
    exact ⟨.failed hc, fun _ => hreports⟩

/-- Both branches in the type of the conditional, or left as they are where the settings say so. -/
structure Unified.Of (σ : BindSettings) (yes no : BoundNode) (u : Unified) : Prop where
  yes : ∃ t, Converted σ.registry t yes u.yes
  no : ∃ t, Converted σ.registry t no u.no
  fits : Fits σ.registry u.ty u.yes ∧ Fits σ.registry u.ty u.no ∨
    σ.config.wideningFailure = .keepBranches ∧ u.ty = .object

theorem Unified.Of.mk' {yes no : BoundNode} {u : Unified}
    (hyes : Converted σ.registry u.ty yes u.yes) (hno : Converted σ.registry u.ty no u.no) :
    Unified.Of σ yes no u :=
  ⟨⟨_, hyes⟩, ⟨_, hno⟩, .inl ⟨⟨_, hyes⟩, ⟨_, hno⟩⟩⟩

variable {yes no : BoundNode}

theorem coerceBoth_unifies {t : Ty} {u : Unified} (hyes : yes.isError = false)
    (hno : no.isError = false) (hrun : coerceBoth yes no t σ s = (.ok u, s')) :
    Unified.Of σ yes no u ∧ (u.yes.isError ∨ u.no.isError → s.Reports s') := by
  obtain ⟨yes', s₁, hrunYes, hrun⟩ := bind_eq_ok.1 hrun
  obtain ⟨no', s₂, hrunNo, hrun⟩ := bind_eq_ok.1 hrun
  obtain ⟨rfl, rfl⟩ := pure_eq_ok.1 hrun
  obtain ⟨hyes', hreportsYes⟩ := coerce_converts hyes hrunYes
  obtain ⟨hno', hreportsNo⟩ := coerce_converts hno hrunNo
  have hfirst := ((coerce_still _ _).of_run hrunYes).1.diagnostics
  have hlast := ((coerce_still _ _).of_run hrunNo).1.diagnostics
  refine ⟨.mk' hyes' hno', ?_⟩
  rintro (herror | herror)
  · exact (hreportsYes herror).before hlast
  · exact (hreportsNo herror).after hfirst

/-- Branches without a common type are given up or kept as they are. -/
theorem widenedTo_unifies {common : Option Ty} {u? : Option Unified} (hyes : yes.isError = false)
    (hno : no.isError = false) (hrun : widenedTo yes no common σ s = (.ok u?, s')) :
    ∀ u ∈ u?, Unified.Of σ yes no u ∧ (u.yes.isError ∨ u.no.isError → s.Reports s') := by
  cases common with
  | some t =>
    obtain ⟨u, hboth, rfl⟩ := map_eq_ok.1 hrun
    rintro _ ⟨⟩
    exact coerceBoth_unifies hyes hno hboth
  | none =>
    obtain ⟨settings, s₁, hread, hrest⟩ := bind_eq_ok.1 hrun
    obtain ⟨rfl, rfl⟩ := read_eq_ok.1 hread
    cases hmode : settings.config.wideningFailure with
    | error =>
      rw [hmode] at hrest
      obtain ⟨rfl, rfl⟩ := pure_eq_ok.1 hrest
      rintro _ ⟨⟩
    | keepBranches =>
      rw [hmode] at hrest
      obtain ⟨u, s₂, -, hpure⟩ := bind_eq_ok.1 hrest
      obtain ⟨rfl, rfl⟩ := pure_eq_ok.1 hpure
      rintro _ ⟨⟩
      refine ⟨⟨⟨_, .same rfl⟩, ⟨_, .same rfl⟩, .inr ⟨hmode, rfl⟩⟩, ?_⟩
      simp [hyes, hno]

theorem widenBoth_unifies {u? : Option Unified} (hyes : yes.isError = false)
    (hno : no.isError = false) (hrun : widenBoth yes no σ s = (.ok u?, s')) :
    ∀ u ∈ u?, Unified.Of σ yes no u ∧ (u.yes.isError ∨ u.no.isError → s.Reports s') := by
  cases h : commonSuperclass yes.ty no.ty with
  | some t =>
    rw [widenBoth_of_superclass h] at hrun
    exact widenedTo_unifies hyes hno hrun
  | none =>
    rw [widenBoth_of_no_superclass h] at hrun
    obtain ⟨common, s₁, hcommon, hrest⟩ := bind_eq_ok.1 hrun
    have hgrows := (Moves.of_run (R := Still) (commonType_moves _ _) hcommon).1.diagnostics
    intro u hu
    obtain ⟨hof, hreports⟩ := widenedTo_unifies hyes hno hrest u hu
    exact ⟨hof, fun herror => (hreports herror).after hgrows⟩

theorem wrap_isError {b : BoundNode} {cast : Cast} (hb : b.isError = false) :
    (b.wrap cast).isError = false := by
  unfold BoundNode.wrap
  split
  · exact hb
  · rfl

/-- However two branches are brought together, each is converted to the type they share. -/
theorem unify_unifies {u? : Option Unified} (hyes : yes.isError = false)
    (hno : no.isError = false) (hrun : unify yes no σ s = (.ok u?, s')) :
    ∀ u ∈ u?, Unified.Of σ yes no u ∧ (u.yes.isError ∨ u.no.isError → s.Reports s') := by
  unfold unify at hrun
  split at hrun
  case isTrue hkey =>
    obtain ⟨rfl, rfl⟩ := pure_eq_ok.1 hrun
    rintro _ ⟨⟩
    exact ⟨.mk' (.same rfl) (.same hkey.symm), by simp [hyes, hno]⟩
  split at hrun
  · obtain ⟨u, s₁, hboth, hrun⟩ := bind_eq_ok.1 hrun
    obtain ⟨rfl, rfl⟩ := pure_eq_ok.1 hrun
    rintro _ ⟨⟩
    exact coerceBoth_unifies hyes hno hboth
  rw [bind_eq_ok] at hrun
  obtain ⟨forward, s₁, hforward, hrun⟩ := hrun
  rw [implicitCast_eq_ok] at hforward
  obtain ⟨hforward, rfl⟩ := hforward
  rw [bind_eq_ok] at hrun
  obtain ⟨backward, s₂, hbackward, hrun⟩ := hrun
  rw [implicitCast_eq_ok] at hbackward
  obtain ⟨hbackward, rfl⟩ := hbackward
  -- Either branch may convert to the type of the other, which then stays as it is.
  have hleft {f : Cast} (hf : σ.registry.implicitCast yes.ty no.ty = .ok (some f)) :
      Unified.Of σ yes no ⟨yes.wrap f, no, no.ty⟩ := .mk' (wrap_converted hf) (.same rfl)
  have hright {b : Cast} (hb : σ.registry.implicitCast no.ty yes.ty = .ok (some b)) :
      Unified.Of σ yes no ⟨yes, no.wrap b, yes.ty⟩ := .mk' (.same rfl) (wrap_converted hb)
  split at hrun
  · split at hrun
    · obtain ⟨rfl, rfl⟩ := pure_eq_ok.1 hrun
      rintro _ ⟨⟩
      exact ⟨hleft hforward, by simp [wrap_isError hyes, hno]⟩
    · obtain ⟨rfl, rfl⟩ := pure_eq_ok.1 hrun
      rintro _ ⟨⟩
      exact ⟨hright hbackward, by simp [hyes, wrap_isError hno]⟩
  · obtain ⟨rfl, rfl⟩ := pure_eq_ok.1 hrun
    rintro _ ⟨⟩
    exact ⟨hleft hforward, by simp [wrap_isError hyes, hno]⟩
  · obtain ⟨rfl, rfl⟩ := pure_eq_ok.1 hrun
    rintro _ ⟨⟩
    exact ⟨hright hbackward, by simp [hyes, wrap_isError hno]⟩
  · exact widenBoth_unifies hyes hno hrun

/-- No node of a list is an error node. -/
def AllBound (ns : List BoundNode) : Prop := ∀ n ∈ ns, n.isError = false

theorem AllBound.of_any {ns : List BoundNode} (h : ¬(ns.any (·.isError)) = true) : AllBound ns := by
  intro n hn
  by_contra hbound
  exact h (List.any_eq_true.2 ⟨n, hn, by simpa using hbound⟩)

theorem AllBound.map_wrap {bs : List BoundNode} (hbs : AllBound bs) (casts : List Cast) :
    AllBound ((bs.zip casts).map fun (b, cast) => b.wrap cast) := by
  intro c hc
  obtain ⟨⟨b, cast⟩, hmem, rfl⟩ := List.mem_map.1 hc
  exact wrap_isError (hbs b (List.of_mem_zip hmem).1)

theorem convertedAll_refl (r : Registry) (bs : List BoundNode) : ConvertedAll r bs bs :=
  List.forall₂_same.2 fun b _ => ⟨b.ty, .same rfl⟩

/-- All operands are converted or none is. -/
theorem castsTo_eq_ok {target : Ty} {operands : List BoundNode} {casts? : Option (List Cast)}
    (hrun : castsTo target operands σ s = (.ok casts?, s')) :
    ∀ casts ∈ casts?, List.Forall₂
      (fun b cast => σ.registry.implicitCast b.ty target = .ok (some cast)) operands casts := by
  induction operands generalizing casts? s with
  | nil =>
    obtain ⟨rfl, rfl⟩ := pure_eq_ok.1 hrun
    rintro _ ⟨⟩
    exact .nil
  | cons operand rest ih =>
    obtain ⟨cast?, s₁, hcast, hrest⟩ := bind_eq_ok.1 hrun
    rw [implicitCast_eq_ok] at hcast
    obtain ⟨hcast, rfl⟩ := hcast
    cases cast? with
    | none =>
      obtain ⟨rfl, rfl⟩ := pure_eq_ok.1 hrest
      rintro _ ⟨⟩
    | some cast =>
      obtain ⟨rest?, s₂, hcasts, hpure⟩ := bind_eq_ok.1 hrest
      obtain ⟨rfl, rfl⟩ := pure_eq_ok.1 hpure
      intro casts hmem
      obtain ⟨casts', hcasts', rfl⟩ := Option.map_eq_some_iff.1 hmem
      exact .cons hcast (ih hcasts casts' hcasts')

theorem coerceAll_converts {operands operands' : List BoundNode} {target : Ty}
    (hbound : AllBound operands) (hrun : coerceAll operands target σ s = (.ok operands', s')) :
    ConvertedAll σ.registry operands operands' ∧ AllBound operands' := by
  obtain ⟨casts?, s₁, hcasts, hrest⟩ := bind_eq_ok.1 hrun
  cases casts? with
  | none =>
    obtain ⟨rfl, rfl⟩ := pure_eq_ok.1 hrest
    exact ⟨convertedAll_refl _ _, hbound⟩
  | some casts =>
    obtain ⟨rfl, rfl⟩ := pure_eq_ok.1 hrest
    refine ⟨?_, hbound.map_wrap casts⟩
    have hpairs := castsTo_eq_ok hcasts casts rfl
    clear hcasts hrun hrest hbound
    induction hpairs with
    | nil => exact .nil
    | cons hcast _ ih => exact .cons ⟨target, wrap_converted hcast⟩ ih

theorem liftOperands_converts {methodName : String} {operands operands' : List BoundNode}
    (hbound : AllBound operands)
    (hrun : liftOperands methodName operands σ s = (.ok operands', s')) :
    ConvertedAll σ.registry operands operands' ∧ AllBound operands' := by
  unfold liftOperands at hrun
  split at hrun
  · exact coerceAll_converts hbound hrun
  · split at hrun
    · cases hlifted : liftedType? (operands.map (·.ty)) with
      | some target =>
        rw [hlifted] at hrun
        exact coerceAll_converts hbound hrun
      | none =>
        rw [hlifted] at hrun
        obtain ⟨rfl, rfl⟩ := pure_eq_ok.1 hrun
        exact ⟨convertedAll_refl _ _, hbound⟩
    · obtain ⟨rfl, rfl⟩ := pure_eq_ok.1 hrun
      exact ⟨convertedAll_refl _ _, hbound⟩

theorem Overload.Converts.wrapped {r : Registry} {bs : List BoundNode} {params : List Ty}
    {casts : List Cast} (h : Converts r (bs.map (·.ty)) params casts) :
    let cs := (bs.zip casts).map fun (b, cast) => b.wrap cast
    ConvertedAll r bs cs ∧ List.Forall₂ (Fits r) params cs := by
  induction bs generalizing params casts with
  | nil =>
    cases h
    exact ⟨.nil, .nil⟩
  | cons b bs ih =>
    cases h with
    | cons hcast hcasts =>
      obtain ⟨hconverted, hfits⟩ := ih hcasts
      have hc := wrap_converted hcast
      exact ⟨.cons ⟨_, hc⟩ hconverted, .cons ⟨_, hc⟩ hfits⟩

/-- The call of a candidate with the given arguments, converted to its parameters. -/
structure CallOf (r : Registry) (candidates : List Method) (receiver : Option BoundNode)
    (arguments : List BoundNode) (n : BoundNode) where
  method : Method
  mem : method ∈ candidates
  converted : List BoundNode
  converts : ConvertedAll r arguments converted
  bound : AllBound converted
  fits : List.Forall₂ (Fits r) method.params converted
  shape_eq : n.shape = if method.head.kind = .constructor then .constructor method converted
    else .methodCall method receiver converted
  ty_eq : n.ty = method.returns

theorem buildCall_builds {selection : Selection} {candidates : List Method} {name : String}
    {receiver : Option BoundNode} {arguments : List BoundNode} {span : Span} {n : BoundNode}
    (hbound : AllBound arguments)
    (hselects : Overload.Selects σ.registry candidates name (arguments.map (·.ty)) selection)
    (hrun : buildCall selection receiver arguments span σ s = (.ok n, s')) :
    ∃ call : CallOf σ.registry candidates receiver arguments n, call.method = selection.method := by
  obtain ⟨u, s₁, -, hrest⟩ := bind_eq_ok.1 hrun
  obtain ⟨rfl, rfl⟩ := pure_eq_ok.1 hrest
  obtain ⟨hconverted, hfits⟩ := hselects.converts.wrapped
  exact ⟨⟨selection.method, hselects.mem, _, hconverted, hbound.map_wrap _, hfits, rfl, rfl⟩, rfl⟩

theorem resolve_eq_ok {candidates : List Method} {name : String} {types : List Ty}
    {resolution : Resolution}
    (hrun : BindM.resolve candidates name types σ s = (.ok resolution, s')) :
    Overload.resolve σ.registry candidates name types = .ok resolution ∧ s' = s := by
  obtain ⟨settings, s₁, hread, hcast⟩ := bind_eq_ok.1 hrun
  obtain ⟨rfl, rfl⟩ := read_eq_ok.1 hread
  exact ofCast_eq_ok.1 hcast

/-- A static method drops the receiver that it is called on. -/
theorem callResolved_builds {candidates : List Method} {name : String}
    {receiver : Option BoundNode} {arguments : List BoundNode} {span : Span} {n : BoundNode}
    (hbound : AllBound arguments)
    (hrun : callResolved candidates name receiver arguments span σ s = (.ok n, s')) :
    n.isError ∧ s.Reports s' ∨ ∃ kept, ∃ call : CallOf σ.registry candidates kept arguments n,
      kept = if call.method.head.isStatic then none else receiver := by
  obtain ⟨resolution, s₁, hresolve, hrest⟩ := bind_eq_ok.1 hrun
  obtain ⟨hresolution, hs⟩ := resolve_eq_ok hresolve
  subst hs
  cases resolution with
  | found selection =>
    have hselects := Overload.selects_of_resolve hresolution
    obtain ⟨call, hcall⟩ := buildCall_builds hbound hselects hrest
    exact .inr ⟨_, call, by rw [hcall]⟩
  | notFound => exact .inl (errorNode_reports hrest)
  | ambiguous methods => exact .inl (errorNode_reports hrest)

/-- A constructor is chosen like any method, among those of the type. -/
theorem construct_builds {t : Ty} {arguments : List BoundNode} {span : Span} {n : BoundNode}
    (hbound : AllBound arguments) (hrun : construct t arguments span σ s = (.ok n, s')) :
    n.isError ∧ s.Reports s' ∨
      Nonempty (CallOf σ.registry (s.program.declarations.constructors t) none arguments n) := by
  obtain ⟨context, s₁, hget, hrest⟩ := bind_eq_ok.1 hrun
  obtain ⟨hcontext, hs⟩ := get_eq_ok.1 hget
  subst hcontext hs
  obtain ⟨resolution, s₂, hresolve, hrest⟩ := bind_eq_ok.1 hrest
  obtain ⟨hresolution, hs⟩ := resolve_eq_ok hresolve
  subst hs
  cases resolution with
  | found selection =>
    have hselects := Overload.selects_of_resolve hresolution
    obtain ⟨call, -⟩ := buildCall_builds hbound hselects hrest
    exact .inr ⟨call⟩
  | notFound => exact .inl (errorNode_reports hrest)
  | ambiguous methods => exact .inl (errorNode_reports hrest)

/-- The methods of a module come before the operators of the library. -/
theorem findMethods_eq_ok {name : String} {methods : List Method}
    (hrun : findMethods name σ s = (.ok methods, s')) :
    methods = s.program.methodsNamed name ++ Library.operatorsNamed name ∧ s' = s := by
  obtain ⟨context, s₁, hget, hpure⟩ := bind_eq_ok.1 hrun
  obtain ⟨hcontext, hs⟩ := get_eq_ok.1 hget
  subst hcontext hs
  obtain ⟨rfl, rfl⟩ := pure_eq_ok.1 hpure
  exact ⟨rfl, rfl⟩

/-- Operands are lifted first, so that there are two conversions of each. -/
theorem operatorCall_builds {methodName symbol : String} {operands : List BoundNode} {span : Span}
    {n : BoundNode} (hbound : AllBound operands)
    (hrun : operatorCall methodName symbol operands span σ s = (.ok n, s')) :
    n.isError ∧ s.Reports s' ∨
      ∃ lifted, ConvertedAll σ.registry operands lifted ∧ AllBound lifted ∧
        Nonempty (CallOf σ.registry
          (s.program.methodsNamed methodName ++ Library.operatorsNamed methodName)
          none lifted n) := by
  obtain ⟨lifted, s₁, hlift, hrest⟩ := bind_eq_ok.1 hrun
  obtain ⟨hlifted, hbound'⟩ := liftOperands_converts hbound hlift
  have hquiet := (Moves.of_run (R := Still) (liftOperands_moves _ _) hlift).1
  obtain ⟨methods, s₂, hmethods, hrest⟩ := bind_eq_ok.1 hrest
  obtain ⟨rfl, hs⟩ := findMethods_eq_ok hmethods
  subst hs
  obtain ⟨resolution, s₃, hresolve, hrest⟩ := bind_eq_ok.1 hrest
  obtain ⟨hresolution, hs⟩ := resolve_eq_ok hresolve
  subst hs
  cases resolution with
  | found selection =>
    have hselects := Overload.selects_of_resolve hresolution
    obtain ⟨call, -⟩ := buildCall_builds hbound' hselects hrest
    rw [hquiet.program] at call
    exact .inr ⟨lifted, hlifted, hbound', ⟨call⟩⟩
  | notFound =>
    obtain ⟨hn, hreports⟩ := errorNode_reports hrest
    exact .inl ⟨hn, hreports.after hquiet.diagnostics⟩
  | ambiguous methods =>
    obtain ⟨hn, hreports⟩ := errorNode_reports hrest
    exact .inl ⟨hn, hreports.after hquiet.diagnostics⟩

theorem resolveType_reports {node : SyntaxNode}
    (hrun : resolveType node σ s = (.ok none, s')) : s.Reports s' := by
  fun_induction resolveType node generalizing s with
  | case1 text? children span =>
    obtain ⟨t?, s₁, hfind, hrest⟩ := bind_eq_ok.1 hrun
    have hquiet := (Moves.of_run (R := Still) (findType_moves _) hfind).1
    cases t? with
    | some t => cases hrest
    | none =>
      obtain ⟨u, s₂, hreport, hpure⟩ := bind_eq_ok.1 hrest
      obtain ⟨-, rfl⟩ := pure_eq_ok.1 hpure
      exact (reportError_reports hreport).after hquiet.diagnostics
  | case2 text? element rest span ih =>
    obtain ⟨t?, s₁, helement, hrest⟩ := bind_eq_ok.1 hrun
    cases t? with
    | some t => cases hrest
    | none =>
      obtain ⟨-, rfl⟩ := pure_eq_ok.1 hrest
      exact ih helement
  | case3 =>
    obtain ⟨u, s₁, hreport, hpure⟩ := bind_eq_ok.1 hrun
    obtain ⟨-, rfl⟩ := pure_eq_ok.1 hpure
    exact reportError_reports hreport
  | case4 =>
    obtain ⟨u, s₁, hreport, hpure⟩ := bind_eq_ok.1 hrun
    obtain ⟨-, rfl⟩ := pure_eq_ok.1 hpure
    exact reportError_reports hreport

theorem arrayOf_eq_ok {component t : Ty} (hrun : arrayOf component σ s = (.ok t, s')) :
    ArrayTy component t := by
  obtain ⟨context, s₁, hget, hrest⟩ := bind_eq_ok.1 hrun
  obtain ⟨hcontext, hs⟩ := get_eq_ok.1 hget
  subst hcontext hs
  obtain ⟨u, s₂, -, hpure⟩ := bind_eq_ok.1 hrest
  obtain ⟨rfl, -⟩ := pure_eq_ok.1 hpure
  obtain ⟨known, hknown, hkey⟩ := (s₁.workspace.space s₁.owner.space).arrayOf_fst component
  exact ⟨known, hknown, hkey⟩

theorem commonElementType_reports {current : Ty} {elements : List BoundNode} {failed : BoundNode}
    (hrun : commonElementType current elements σ s = (.ok (.error failed), s')) :
    failed.isError ∧ s.Reports s' := by
  induction elements generalizing current s with
  | nil => cases hrun
  | cons element rest ih =>
    obtain ⟨common?, s₁, hcommon, hrest⟩ := bind_eq_ok.1 hrun
    have hquiet := (Moves.of_run (R := Still) (commonType_moves _ _) hcommon).1
    cases common? with
    | some next =>
      obtain ⟨hfailed, hreports⟩ := ih hrest
      exact ⟨hfailed, hreports.after hquiet.diagnostics⟩
    | none =>
      obtain ⟨node, s₂, herror, hpure⟩ := bind_eq_ok.1 hrest
      obtain ⟨hnode, rfl⟩ := pure_eq_ok.1 hpure
      obtain ⟨hfailed, hreports⟩ := errorNode_reports herror
      exact ⟨Except.error.inj hnode ▸ hfailed, hreports.after hquiet.diagnostics⟩

theorem coerceElements_converts {component : Ty} {elements cs : List BoundNode}
    (hbound : AllBound elements) (hrun : coerceElements component elements σ s = (.ok cs, s')) :
    ConvertedAll σ.registry elements cs ∧
      ∀ c ∈ cs, Fits σ.registry component c ∧ (c.isError → s.Reports s') := by
  induction elements generalizing cs s with
  | nil =>
    obtain ⟨rfl, rfl⟩ := pure_eq_ok.1 hrun
    exact ⟨.nil, fun c hc => by cases hc⟩
  | cons element rest ih =>
    obtain ⟨c, s₁, hc, hrest⟩ := bind_eq_ok.1 hrun
    obtain ⟨cs', s₂, hcs, hpure⟩ := bind_eq_ok.1 hrest
    obtain ⟨rfl, rfl⟩ := pure_eq_ok.1 hpure
    obtain ⟨hconverted, hreports⟩ := coerce_converts (hbound _ List.mem_cons_self) hc
    obtain ⟨hall, hrestAll⟩ := ih (fun n hn => hbound n (List.mem_cons_of_mem _ hn)) hcs
    have hfirst := ((coerce_still _ _).of_run hc).1.diagnostics
    have hlast := ((coerceElements_still _ _).of_run hcs).1.diagnostics
    refine ⟨.cons ⟨_, hconverted⟩ hall, ?_⟩
    intro other hmem
    rcases List.mem_cons.1 hmem with rfl | hmem
    · exact ⟨⟨_, hconverted⟩, fun herror => (hreports herror).before hlast⟩
    · obtain ⟨hfits, hreports⟩ := hrestAll other hmem
      exact ⟨hfits, fun herror => (hreports herror).after hfirst⟩

theorem addVar_eq_some {ns name : String} {t : Ty} {span : Span} {var : LocalVar}
    (hrun : addVar ns name t span σ s = (.ok (some var), s')) :
    s.Adds var s' ∧ s'.receivers = s.receivers ∧ var.ty = t := by
  obtain ⟨context, s₁, hget, hrest⟩ := bind_eq_ok.1 hrun
  obtain ⟨hcontext, hs⟩ := get_eq_ok.1 hget
  subst hcontext hs
  split at hrest
  · obtain ⟨u, s₂, -, hpure⟩ := bind_eq_ok.1 hrest
    obtain ⟨hnone, -⟩ := pure_eq_ok.1 hpure
    cases hnone
  · cases hrest
    refine ⟨⟨?_, rfl, rfl, .inl rfl, List.prefix_rfl, rfl, .refl _⟩, rfl, rfl⟩
    cases hscopes : s₁.scopes <;> simp [addInnermost]

theorem addVar_eq_none {ns name : String} {t : Ty} {span : Span}
    (hrun : addVar ns name t span σ s = (.ok none, s')) : s.Reports s' := by
  obtain ⟨context, s₁, hget, hrest⟩ := bind_eq_ok.1 hrun
  obtain ⟨hcontext, hs⟩ := get_eq_ok.1 hget
  subst hcontext hs
  split at hrest
  · obtain ⟨u, s₂, hreport, hpure⟩ := bind_eq_ok.1 hrest
    obtain ⟨-, rfl⟩ := pure_eq_ok.1 hpure
    exact reportError_reports hreport
  · cases hrest

end RuleExpr

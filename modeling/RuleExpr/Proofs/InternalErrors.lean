import RuleExpr.Proofs.Binding.Answers
import RuleExpr.Proofs.Binding.Composition
import RuleExpr.Proofs.Cast.Separation
import RuleExpr.Proofs.Cast.Distances
import RuleExpr.Proofs.Soundness.Modules

/-!
# Binding Always Answers

Mistakes of the source are reported, and leave an error node; an error in place of a node would be
a failure of the binder itself.  There is none but a sum of distances that does not fit, whatever
the tree, the context and the settings, as long as the registry is put together from structural
casts and libraries of conversions.  Where the distances between the types of the module are small
enough for all sums to fit, there is none at all.

Three other things could go wrong inside.  A provider could answer for other types than it was asked
about, which the registry refuses.  A binder could reach for a child that its node does not have;
instead every kind of node has its arity, and a node with another number of children is reported
without looking at any of them.  And the conversion of arrays takes the price of a written
conversion off again, which is part of what it is taken off.
-/

namespace RuleExpr

open BindM

/-- A registry of structural casts and libraries, in any order and number. -/
def Registry.Ordinary (r : Registry) : Prop :=
  ∀ p ∈ r.providers, p = .structural ∨ ∃ library : CastLibrary, p = library.provider

/-- The sums that are made for types in `O` fit.  Libraries convert to such types, and the price
goes on top of the distances at which conversions to be written are registered; and the distances
from two types to a third are added up. -/
structure Registry.SumsFit (r : Registry) (O : Ty → Prop) : Prop where
  price : ∀ p ∈ r.providers, p = .structural ∨ ∃ library : CastLibrary, p = library.provider ∧
    ∀ entry ∈ library.entries, O entry.method.returns ∧
      (entry.implicit = false → Distance.explicit + entry.distance < Distance.limit)
  total : ∀ ⦃a b t : Ty⦄ ⦃f g : Cast⦄, O a → O b → O t → r.implicitCast a t = .ok (some f) →
    r.implicitCast b t = .ok (some g) → f.distance + g.distance < Distance.limit

namespace Registry.Ordinary

variable {r : Registry} {O : Ty → Prop} {a b : Ty} {c : Cast} {e : CastError} (h : r.Ordinary)

include h

/-- The providers answer with the end points they are asked for. -/
theorem endpoints {p : Provider} (hp : p ∈ r.providers) (hcast : p.cast a b = .ok (some c)) :
    c.source.key = a.key ∧ c.target.key = b.key := by
  rcases h p hp with rfl | ⟨library, rfl⟩
  · exact (structuralCast_structural (Except.ok.inj hcast)).endpoints
  · exact CastLibrary.cast_endpoints hcast

/-- A lookup fails for the price of a conversion of a library only. -/
theorem exists_entry_of_error (hfails : r.cast a b = .error e) :
    e = .overflow ∧ ∃ library : CastLibrary, library.provider ∈ r.providers ∧
      ∃ entry ∈ library.entries, entry.implicit = false ∧
        Distance.limit ≤ Distance.explicit + entry.distance := by
  obtain ⟨p, hp, hprovider⟩ := cast_eq_error (fun _ hp _ => h.endpoints hp) hfails
  rcases h p hp with rfl | ⟨library, rfl⟩
  · cases hprovider
  · obtain ⟨rfl, -, entry, hentry, hlimit⟩ := CastLibrary.cast_eq_error_iff.1 hprovider
    exact ⟨rfl, library, hp, entry, (CastLibrary.matching_spec hentry).1,
      CastLibrary.matching_implicit hentry, hlimit⟩

theorem trusts : r.Trusts := fun _ _ _ hfails => (h.exists_entry_of_error hfails).1

end Registry.Ordinary

namespace Registry.SumsFit

variable {r : Registry} {O : Ty → Prop} {a b : Ty} {e : CastError} (h : r.SumsFit O)

include h

theorem ordinary : r.Ordinary :=
  fun p hp => (h.price p hp).imp_right fun ⟨library, hlibrary, _⟩ => ⟨library, hlibrary⟩

theorem cast_ne_error : r.cast a b ≠ .error e := by
  intro hfails
  obtain ⟨p, hp, hprovider⟩ := cast_eq_error (fun _ hp _ => h.ordinary.endpoints hp) hfails
  rcases h.price p hp with rfl | ⟨library, rfl, hentries⟩
  · cases hprovider
  · obtain ⟨-, -, entry, hentry, hlimit⟩ := CastLibrary.cast_eq_error_iff.1 hprovider
    have hfits := (hentries entry (CastLibrary.matching_spec hentry).1).2
    exact absurd hlimit (Nat.not_le.2 (hfits (CastLibrary.matching_implicit hentry)))

theorem keeps (hclosed : Ty.Closed O) : r.Keeps O where
  cast a b c ha hb hcast := by
    obtain ⟨p, hp, hprovider⟩ := firstCast_provider hcast
    rcases h.price p hp with rfl | ⟨library, rfl, -⟩
    · exact (structuralCast_structural (Except.ok.inj hprovider)).target_mem ha hb
    · obtain ⟨entry, hcalls⟩ := CastLibrary.cast_calls hprovider
      rw [hcalls.target_eq]
      exact hb
  targets p hp a ha := by
    rcases h.price p hp with rfl | ⟨library, rfl, hentries⟩
    · exact hclosed.structuralTargets ha
    · intro t ht
      obtain ⟨entry, hentry, rfl⟩ := List.mem_map.1 ht
      exact (hentries entry (List.mem_filter.1 hentry).1).1

/-- Lookups between the types answer. -/
theorem not_failsIn (hclosed : Ty.Closed O) : ¬r.FailsIn O e := by
  rintro ⟨a, b, ha, hb, hcast | hcommon⟩
  · exact h.cast_ne_error hcast
  · obtain ⟨-, t, ht, hscore⟩ := commonType_eq_error hcommon
    rcases score?_eq_error_iff.1 hscore with hfrom | ⟨-, hfrom⟩ | ⟨-, f, g, hf, hg, hlimit⟩
    · exact h.cast_ne_error (implicitCast_eq_error_iff.1 hfrom).2
    · exact h.cast_ne_error (implicitCast_eq_error_iff.1 hfrom).2
    · have htotal := h.total ha hb ((h.keeps hclosed).candidates ha hb t ht) hf hg
      exact absurd hlimit (Nat.not_le.2 htotal)

end Registry.SumsFit

/-- Sums fit for conversions of libraries at up to a quarter of the limit, and hierarchies of up to
an eighth of it. -/
theorem Registry.sumsFit_of_le {r : Registry} {O : Ty → Prop} (hclosed : Ty.Closed O)
    (hhierarchies : ∀ t, O t → t.weight ≤ Distance.limit / 8)
    (hproviders : ∀ p ∈ r.providers, p = .structural ∨ ∃ library : CastLibrary,
      p = library.provider ∧
        ∀ entry ∈ library.entries, O entry.method.returns ∧ entry.distance ≤ Distance.limit / 4) :
    r.SumsFit O := by
  have hprice : Distance.explicit = 200 := rfl
  have hlimit : Distance.limit = 4294967296 := rfl
  have hcast {a b : Ty} {c : Cast} (ha : O a) (hb : O b)
      (hanswer : r.implicitCast a b = .ok (some c)) : c.distance ≤ Distance.limit / 4 + 200 := by
    rcases implicitCast_eq_some hanswer with ⟨-, rfl⟩ | hanswer
    · exact Nat.zero_le _
    obtain ⟨p, hp, hprovider⟩ := firstCast_provider hanswer
    rcases hproviders p hp with rfl | ⟨library, rfl, hentries⟩
    · have hle := structuralCast_distance_le (Except.ok.inj hprovider)
      have hlevels := hclosed.levelsBetween_le hhierarchies ha hb
      rw [Distance.upcastStep, hprice] at hle
      omega
    · obtain ⟨entry, ⟨hentry, rfl⟩ | ⟨-, hentry, -, rfl⟩⟩ := CastLibrary.cast_cases hprovider
      all_goals
        have hle := (hentries entry (CastLibrary.matching_spec hentry).1).2
        simp only [Cast.ofImplicit, Cast.ofExplicit, hprice]
        omega
  constructor
  · intro p hp
    refine (hproviders p hp).imp_right ?_
    rintro ⟨library, hlibrary, hentries⟩
    refine ⟨library, hlibrary, fun entry hentry => ⟨(hentries entry hentry).1, fun _ => ?_⟩⟩
    have hle := (hentries entry hentry).2
    rw [hprice]
    omega
  · intro a b t f g ha hb ht hf hg
    have hleF := hcast ha ht hf
    have hleG := hcast hb ht hg
    omega

theorem Library.registry_ordinary : Library.registry.Ordinary := by
  intro p hp
  rcases List.mem_cons.1 hp with rfl | hp
  · exact .inl rfl
  · exact .inr ⟨Library.casts, List.mem_singleton.1 hp⟩

/-- A run of the action fails for a sum of distances that does not fit, if at all. -/
def BindM.OnlyOverflows {α : Type} (σ : BindSettings) (act : BindM α) : Prop :=
  ∀ ⦃s e s'⦄, act σ s = (.error e, s') → e = .cast .overflow

section

variable {σ : BindSettings}

theorem BindM.onlyOverflows_compositional (hr : σ.registry.Trusts) :
    Compositional fun act _ => OnlyOverflows σ act where
  pure _ _ _ _ hrun := by cases hrun
  bind {_ _ x _ f _} hx hf s e s' hrun := by
    match hfirst : x σ s with
    | (.ok a, s₁) =>
      rw [run_bind_of_ok hfirst] at hrun
      exact hf a hrun
    | (.error e', s₁) =>
      rw [run_bind_of_error hfirst] at hrun
      cases hrun
      exact hx hfirst
  step _ _ _ _ _ hrun := by cases hrun
  read _ h _ _ _ hrun := h σ hrun
  query q hq s e s' hrun := by
    rw [run_bind_of_ok (read_eq_ok.2 ⟨rfl, rfl⟩)] at hrun
    match hanswer : q σ.registry with
    | .ok b =>
      rw [hanswer] at hrun
      cases hrun
    | .error failure =>
      rw [hanswer] at hrun
      cases hrun
      rw [hq σ.registry hr failure hanswer]
  report _ _ _ _ _ hrun := by cases hrun
  deprecation method span s e s' hrun := by
    rcases reportDeprecation_cases method span σ with hnothing | ⟨d, -, hreport⟩
    · rw [hnothing] at hrun
      cases hrun
    · rw [hreport] at hrun
      cases hrun
  inScope {_ x _} hx s e s' hrun := by
    unfold BindM.inScope at hrun
    match hact : x σ s.pushScope with
    | (r, s₁) =>
      rw [hact] at hrun
      cases hrun
      exact hx hact

theorem onlyOverflows_nested (span : Span) {act : BindM BoundNode} (hact : OnlyOverflows σ act) :
    OnlyOverflows σ (nested span act) := by
  intro s e s' hrun
  by_cases hdepth : s.depth < σ.config.maxBindDepth
  · match hinner : act σ { s with depth := s.depth + 1 } with
    | (r, s₁) =>
      rw [nested_of_lt hdepth hinner] at hrun
      cases hrun
      exact hact hinner
  · rw [nested_of_not_lt hdepth] at hrun
    cases hrun

theorem bind_onlyOverflows (hr : σ.registry.Trusts) (node : SyntaxNode) :
    OnlyOverflows σ (bind node) :=
  (onlyOverflows_compositional hr).bindTree (fun span _ _ => onlyOverflows_nested span) node

theorem BindM.OnlyOverflows.ok_or_overflow {α : Type} {act : BindM α} (h : OnlyOverflows σ act)
    (s : BindState) :
    (∃ a s', act σ s = (.ok a, s')) ∨ ∃ s', act σ s = (.error (.cast .overflow), s') := by
  match hrun : act σ s with
  | (.ok a, s') => exact .inl ⟨a, s', rfl⟩
  | (.error e, s') =>
    obtain rfl := h hrun
    exact .inr ⟨s', rfl⟩

end

/-- Whether a number of children is taken. -/
def Arity.admits : Arity → Nat → Bool
  | exactly count, n => n = count
  | between least most, n => least ≤ n && n ≤ most
  | atLeast least, n => least ≤ n

/-- How many children the binder of a kind of node takes.  The children of what is no value by
itself are not looked at. -/
def NodeKind.arity : NodeKind → Arity
  | fieldAccess | unary _ => .exactly 1
  | index | binary _ | cast | newArray | varDecl => .exactly 2
  | ternary => .exactly 3
  | conditional | aggregate _ => .between 2 3
  | memberCall | new => .atLeast 1
  | literal _ | identifier | typeName | arrayType | methodCall | arrayInit | loopVar | block =>
    .atLeast 0

/-- A node with a number of children that its kind does not take is reported, and that is all. -/
theorem bindKind_of_not_admits {node : SyntaxNode} {children : List Child}
    (h : node.kind.arity.admits children.length = false) :
    bindKind node children = malformed node node.kind.arity := by
  obtain ⟨kind, text?, nodes, span⟩ := node
  unfold bindKind
  cases kind
  case literal | identifier | typeName | arrayType | methodCall | arrayInit | loopVar | block =>
    simp [NodeKind.arity, Arity.admits] at h
  case binary op =>
    simp only [bindBinary, bindLogical]
    split
    -- The first pattern is the one for two children.
    all_goals
      split
      · cases h
      · rfl
  case ternary =>
    simp only [bindConditional, if_true]
    split
    · cases h
    · rfl
  case conditional =>
    simp only [bindConditional, reduceCtorEq, if_false]
    split
    · cases h
    · split
      · cases h
      · rfl
  case aggregate kind =>
    simp only [bindAggregate]
    split
    · cases h
    · cases h
    · rfl
  case memberCall | new =>
    simp only [bindMemberCall, bindNew]
    split
    · rfl
    · simp [NodeKind.arity, Arity.admits] at h
  all_goals
    simp only [bindFieldAccess, bindIndex, bindUnary, bindCast, bindNewArray, bindVarDecl]
    split
    · cases h
    · rfl

theorem bind_of_not_admits {node : SyntaxNode} {σ : BindSettings} {s : BindState}
    (h : node.kind.arity.admits node.children.length = false)
    (hdepth : s.depth < σ.config.maxBindDepth) :
    bind node σ s = malformed node node.kind.arity σ s := by
  obtain ⟨kind, text?, children, span⟩ := node
  have hlength : (childrenOf children).length = children.length := by
    rw [← List.length_map, childrenOf_nodes]
  rw [bind, bindKind_of_not_admits (hlength ▸ h)]
  rw [nested_of_lt hdepth rfl]
  rfl

/-- Where the sums fit, binding keeps to types for which every lookup answers. -/
theorem bind_succeeds {r : Registry} {P : Program} {O : Ty → Prop} {s : BindState}
    (hP : P.TypesIn O) (hfit : r.SumsFit O) (hs : s.Knows P O) (config : Config)
    (node : SyntaxNode) : ∃ root s', bind node ⟨r, config⟩ s = (.ok root, s') := by
  match hrun : bind node ⟨r, config⟩ s with
  | (.ok root, s') => exact ⟨root, s', rfl⟩
  | (.error e, s') =>
    obtain ⟨failure, -, hfails⟩ := (bind_stays ⟨hP, hfit.keeps hP.toClosed⟩ node).fails hs hrun
    exact absurd hfails (hfit.not_failsIn hP.toClosed)

/-- Binding answers with a node, whatever the tree, the context and the settings, with a registry of
structural casts and libraries and unless a sum of distances does not fit.  The providers answer for
the types they are asked about, so that the registry never refuses an answer; a node with a number
of children that its kind does not take is reported without a look at them; and the price of a
written conversion is part of what the conversion of arrays takes it off. -/
theorem bind_always_answers {r : Registry} (hr : r.Ordinary) (config : Config) (s : BindState)
    (node : SyntaxNode) :
    ((∃ root s', bind node ⟨r, config⟩ s = (.ok root, s')) ∨
      ∃ s', bind node ⟨r, config⟩ s = (.error (.cast .overflow), s')) ∧
      (∀ (P : Program) (O : Ty → Prop), P.TypesIn O → s.Knows P O → r.SumsFit O →
        ∃ root s', bind node ⟨r, config⟩ s = (.ok root, s')) ∧
      (∀ p ∈ r.providers, ∀ a b c, p.cast a b = .ok (some c) →
        c.source.key = a.key ∧ c.target.key = b.key) ∧
      (∀ a b e, r.cast a b = .error e → e = .overflow ∧
        ∃ library : CastLibrary, library.provider ∈ r.providers ∧ ∃ entry ∈ library.entries,
          entry.implicit = false ∧ Distance.limit ≤ Distance.explicit + entry.distance) ∧
      (s.depth < config.maxBindDepth → node.kind.arity.admits node.children.length = false →
        bind node ⟨r, config⟩ s = malformed node node.kind.arity ⟨r, config⟩ s) ∧
      ∀ a b inner, structuralCast a b = some inner → inner.kind = .downcast →
        Distance.explicit ≤ inner.distance := by
  refine ⟨(bind_onlyOverflows hr.trusts node).ok_or_overflow s, ?_, fun p hp a b c =>
    hr.endpoints hp, fun a b e => hr.exists_entry_of_error,
    fun hdepth hchildren => bind_of_not_admits hchildren hdepth, ?_⟩
  · exact fun P O hP hs hfit => bind_succeeds hP hfit hs config node
  · intro a b inner hinner hkind
    rw [structuralCast_downcast hinner hkind]
    exact Nat.le_add_right _ _

/-- An index with one child only, which has none of the children it needs either, bound with a
registry that asks the library first and the structure twice. -/
theorem bind_always_answers_malformed :
    let r : Registry := ⟨[Library.casts.provider, .structural, .structural]⟩
    let settings : BindSettings := ⟨r, .standard⟩
    let s := typesOnly []
    let node : SyntaxNode := ⟨.index, none, [⟨.new, none, [], .nowhere⟩], .nowhere⟩
    r.Ordinary ∧ s.program.TypesIn (Ty.Over []) ∧ s.Knows s.program (Ty.Over []) ∧
      r.SumsFit (Ty.Over []) ∧ (∃ root s', bind node settings s = (.ok root, s')) ∧
      bind node settings s = malformed node (.exactly 2) settings s ∧
      ∃ inner, structuralCast (.array .number) (.array (.boxed .int)) = some inner ∧
        inner.kind = .downcast ∧ Distance.explicit ≤ inner.distance := by
  intro r settings s node
  have hP : s.program.TypesIn (Ty.Over []) := typesOnly_typesIn (List.forall_mem_nil _)
  have hfit : r.SumsFit (Ty.Over []) := by
    refine Registry.sumsFit_of_le hP.toClosed (fun t ht => ?_) fun p hp => ?_
    · exact (ht.weight_le (List.forall_mem_nil _) (Nat.le_refl 2)).trans (by decide)
    · rcases List.mem_cons.1 hp with rfl | hp
      · refine .inr ⟨Library.casts, rfl, fun entry hentry => ⟨?_, ?_⟩⟩
        · obtain ⟨kind, -, ⟨key, hbuiltin⟩, -⟩ := Library.casts_convertsTo hentry
          exact Ty.over_builtin hbuiltin
        · exact (Library.conversion_distance_le entry hentry).trans (by decide)
      · simp only [List.mem_cons, List.not_mem_nil, or_false, or_self] at hp
        exact .inl hp
  obtain ⟨-, hanswer, -, -, harity, hprice⟩ :=
    bind_always_answers hfit.ordinary .standard s node
  have hdown : (structuralCast (.array .number) (.array (.boxed .int))).any Cast.isDowncast =
      true := by decide +kernel
  obtain ⟨inner, hinner, hdown⟩ := (Option.any_eq_true _ _).1 hdown
  have hkind : inner.kind = .downcast := by
    unfold Cast.isDowncast at hdown
    split at hdown
    · assumption
    · cases hdown
  exact ⟨hfit.ordinary, hP, typesOnly_knows _ _, hfit,
    hanswer s.program _ hP (typesOnly_knows _ _) hfit, harity (by decide) (by decide), inner,
    hinner, hkind, hprice _ _ inner hinner hkind⟩

end RuleExpr

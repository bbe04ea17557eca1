import RuleExpr.Proofs.AncestorLists
import RuleExpr.Proofs.NearestCommonType
import RuleExpr.Proofs.UpcastOrder

/-!
# Implicit Targets

Whether one type converts to another by itself is decided by a chain of tests; what a type converts
to is listed on its own, kind by kind.  The list leaves out the root of all references, which every
type converts to, and null has no list, as it converts to every reference.  But for these two, the
key of every implicit target is in the list.  So it is also among the candidates for a common type,
as long as the registry asks for the structure of types at all.

Super-types may be declared in any way here: the walk that finds the level of an ancestor and the
one that lists all ancestors meet the same keys.
-/

namespace RuleExpr

variable {a b : Ty} {c : Cast} {p q : Primitive} {given wanted : NumericKind}

theorem Primitive.primitive?_of_numeric? (h : p.numeric? = some given) :
    given.primitive? = some p := by
  cases p <;> cases h <;> rfl

/-- Only primitive kinds widen to primitive kinds. -/
theorem NumericKind.wideningTarget_of_widensTo (hwidens : given.widensTo wanted = true)
    (hwanted : wanted.primitive? = some q) :
    ∃ p, given.primitive? = some p ∧ q ∈ p.wideningTargets := by
  rw [widensTo, Bool.and_eq_true, hwanted] at hwidens
  cases hgiven : given.primitive? with
  | some p =>
    rw [hgiven] at hwidens
    exact ⟨p, rfl, List.contains_iff_mem.1 hwidens.2⟩
  | none =>
    rw [hgiven] at hwidens
    cases hwidens.2

theorem mem_numericTargets_of_primitive (hgiven : given.primitive? = some p)
    (hb : b = .boxed p ∨ ∃ q ∈ p.wideningTargets, b = .primitive q ∨ b = .boxed q) :
    b ∈ numericTargets given := by
  rw [numericTargets, hgiven]
  refine List.mem_append_left _ (List.mem_append_left _ ?_)
  rcases hb with rfl | ⟨q, hq, hb⟩
  · exact List.mem_cons_self
  · refine List.mem_cons_of_mem _ (List.mem_flatMap.2 ⟨q, hq, ?_⟩)
    simpa using hb

/-- All types of the wider kinds are listed. -/
theorem mem_numericTargets (hb : b.numericKind? = some wanted)
    (hwidens : given.widensTo wanted = true) : b ∈ numericTargets given := by
  have hprimitive {q : Primitive} (hq : q.numeric? = some wanted)
      (hb : b = .primitive q ∨ b = .boxed q) : b ∈ numericTargets given := by
    obtain ⟨p, hgiven, hmem⟩ := NumericKind.wideningTarget_of_widensTo hwidens
      (Primitive.primitive?_of_numeric? hq)
    exact mem_numericTargets_of_primitive hgiven (.inr ⟨q, hmem, hb⟩)
  cases b with
  | primitive q => exact hprimitive hb (.inl rfl)
  | boxed q => exact hprimitive hb (.inr rfl)
  | bigInteger =>
    cases hb
    refine List.mem_append_left _ (List.mem_append_right _ ?_)
    rw [if_pos hwidens]
    exact List.mem_cons_self
  | bigDecimal =>
    cases hb
    refine List.mem_append_right _ ?_
    rw [if_pos hwidens]
    exact List.mem_cons_self
  | _ => cases hb

theorem structuralTargets_of_numericKind? (ha : a.numericKind? = some given) :
    structuralTargets a = scalarTargets a := by
  cases a with
  | primitive p => cases p <;> first | rfl | cases ha
  | boxed p => cases p <;> first | rfl | cases ha
  | bigInteger | bigDecimal => rfl
  | _ => cases ha

theorem mem_structuralTargets_of_numeric (ha : a.numericKind? = some given)
    (hb : b ∈ numericTargets given) (hkey : a.key ≠ b.key) : b ∈ structuralTargets a := by
  rw [structuralTargets_of_numericKind? ha]
  unfold scalarTargets
  rw [ha]
  refine List.mem_append_left _ (List.mem_append_right _ (List.mem_filter.2 ⟨hb, ?_⟩))
  exact decide_eq_true hkey.symm

theorem boxed_mem_structuralTargets (p : Primitive) :
    .boxed p ∈ structuralTargets (.primitive p) := by
  cases hp : p.numeric? with
  | some kind =>
    have hbox := mem_numericTargets_of_primitive (b := .boxed p)
      (Primitive.primitive?_of_numeric? hp) (.inl rfl)
    refine mem_structuralTargets_of_numeric (a := .primitive p) hp hbox ?_
    cases p <;> decide
  | none =>
    cases p with
    | boolean => exact List.mem_cons_self
    | _ => cases hp

theorem primitive_mem_structuralTargets (p : Primitive) :
    .primitive p ∈ structuralTargets (.boxed p) := by
  cases p <;> exact List.mem_cons_self

/-- A type that lists no ancestors has none. -/
theorem structuralTargets_eq_or (a : Ty) :
    structuralTargets a = scalarTargets a ∨ a.box.supers = [] := by
  cases a with
  | primitive p => cases p <;> first | exact .inr rfl | exact .inl rfl
  | boxed p => cases p <;> first | exact .inr rfl | exact .inl rfl
  | null | void | error | object | array => exact .inr rfl
  | _ => exact .inl rfl

theorem key_mem_structuralTargets_of_levels {levels : Nat} (hkey : a.box.key ≠ b.key)
    (h : a.box.ancestorDistance b = some levels) : b.key ∈ (structuralTargets a).map Ty.key := by
  rcases structuralTargets_eq_or a with hlists | hnone
  · obtain ⟨entry, hentry, hsame⟩ := List.mem_map.1 (Ty.mem_keysOf_ancestors hkey h)
    rw [hlists]
    refine List.mem_map.2 ⟨entry.1, List.mem_append_right _ ?_, hsame⟩
    exact List.mem_map_of_mem hentry
  · exact absurd (Ty.key_eq_of_no_supers hnone h) hkey

theorem Ty.isObject_of_innermost (h : b.innermost.isObject = false) : b.isObject = false := by
  cases b with
  | array => rfl
  | _ => exact h

theorem key_mem_of_scalarCast (hkey : a.key ≠ b.key) (hnull : a.isNull = false)
    (hobject : b.isObject = false) (h : scalarCast a b = some c) (hunwritten : c.Unwritten) :
    b.key ∈ (structuralTargets a).map Ty.key := by
  cases scalarCast_cases h with
  | null => cases hnull
  | boxObject | object => cases hobject
  | box p => exact List.mem_map_of_mem (boxed_mem_structuralTargets p)
  | unbox p => exact List.mem_map_of_mem (primitive_mem_structuralTargets p)
  | widen ha hb hwidens =>
    have hlisted := mem_numericTargets hb hwidens
    exact List.mem_map_of_mem (mem_structuralTargets_of_numeric ha hlisted hkey)
  | @boxAncestor p _ _ hlevels =>
    by_cases hbox : (Ty.boxed p).key = b.key
    · exact hbox ▸ List.mem_map_of_mem (boxed_mem_structuralTargets p)
    · exact key_mem_structuralTargets_of_levels (a := .primitive p) hbox hlevels
  | up _ hlevels =>
    cases a with
    | primitive p => exact absurd (Ty.key_eq_of_no_supers rfl hlevels) hkey
    | _ => exact key_mem_structuralTargets_of_levels hkey hlevels
  | narrow | unboxUnchecked => exact absurd hunwritten (Cast.not_unwritten_narrowing _ _ _ _)
  | fromRoot | down => exact absurd hunwritten (Cast.not_unwritten_downcast _ _ _)

/-- Arrays list the arrays of what their components list. -/
theorem key_mem_array (ha : a.isPrimitive = false)
    (h : b.key ∈ (structuralTargets a).map Ty.key) :
    (Ty.array b).key ∈ (structuralTargets (.array a)).map Ty.key := by
  obtain ⟨target, htarget, hkey⟩ := List.mem_map.1 h
  refine List.mem_map.2 ⟨.array target, ?_, Ty.key_array hkey⟩
  rw [structuralTargets, if_neg (Bool.eq_false_iff.1 ha)]
  exact List.mem_map_of_mem htarget

theorem key_mem_of_structuralCast (hkey : a.key ≠ b.key) (hnull : a.innermost.isNull = false)
    (hobject : b.innermost.isObject = false) (h : structuralCast a b = some c)
    (hunwritten : c.Unwritten) : b.key ∈ (structuralTargets a).map Ty.key := by
  fun_induction structuralCast a b generalizing c with
  | case1 a b hsame => exact absurd hsame hkey
  | case2 => cases h
  | case3 a b hprimitive hdifferent ih =>
    obtain ⟨inner, hinner, hlift⟩ := Option.bind_eq_some_iff.1 h
    simp only [Bool.or_eq_true, not_or, Bool.not_eq_true] at hprimitive
    rcases liftToArrays_cases hlift with ⟨hkind, rfl⟩ | ⟨-, rfl⟩
    · have hlisted := ih (mt Ty.key_array hdifferent) hnull hobject hinner (.inr hkind)
      exact key_mem_array hprimitive.1 hlisted
    · exact absurd hunwritten (Cast.not_unwritten_downcast _ _ _)
  | case4 a b =>
    exact key_mem_of_scalarCast hkey (Ty.isNull_of_innermost hnull)
      (Ty.isObject_of_innermost hobject) h hunwritten

/-- A target of a provider is a candidate for a common type, by its key. -/
theorem Registry.key_mem_candidates {r : Registry} {provider : Provider} {key : TypeKey}
    (hprovider : provider ∈ r.providers)
    (h : key ∈ (provider.targets a).map Ty.key ∨ key ∈ (provider.targets b).map Ty.key) :
    key ∈ (r.candidates a b).map Ty.key := by
  rw [candidates_eq, mem_map_firstsBy, named, List.map_cons, List.map_cons, List.map_flatMap]
  refine List.mem_cons_of_mem _ (List.mem_cons_of_mem _ ?_)
  refine List.mem_flatMap.2 ⟨provider, hprovider, ?_⟩
  rwa [List.map_append, List.mem_append]

/-- What a type converts to implicitly by its structure is in its list of targets, by the key, and
so it is among the candidates for a common type with any other type.  Null and its arrays are left
out, and so are the root of all references and its arrays as targets. -/
theorem implicit_targets_complete {source target : Ty} {c : Cast}
    (hnull : source.innermost.isNull = false) (hobject : target.innermost.isObject = false)
    (hkey : source.key ≠ target.key) (hcast : structuralCast source target = some c)
    (himplicit : c.implicit = true) :
    target.key ∈ (structuralTargets source).map Ty.key ∧
    ∀ r : Registry, Provider.structural ∈ r.providers → ∀ other,
      target.key ∈ (r.candidates source other).map Ty.key ∧
      target.key ∈ (r.candidates other source).map Ty.key := by
  have hlisted := key_mem_of_structuralCast hkey hnull hobject hcast (.inl himplicit)
  refine ⟨hlisted, fun r hr other => ⟨?_, ?_⟩⟩
  · exact Registry.key_mem_candidates hr (.inl hlisted)
  · exact Registry.key_mem_candidates hr (.inr hlisted)

open Ty.Zoo Shapes in
/-- Grids of puppies convert to grids of animals, which are listed last. -/
theorem implicit_targets_complete_puppies :
    (grid puppy).innermost.isNull = false ∧ (grid animal).innermost.isObject = false ∧
    (grid puppy).key ≠ (grid animal).key ∧
    (∃ c, structuralCast (grid puppy) (grid animal) = some c ∧ c.implicit = true) ∧
    (structuralTargets (grid puppy)).map Ty.key = [grid dog, grid pet, grid animal].map Ty.key ∧
    (grid animal).key ∈ (structuralTargets (grid puppy)).map Ty.key ∧
    (grid animal).key ∈ (Library.registry.candidates (grid puppy) (.array .string)).map Ty.key := by
  have hconverts : ((structuralCast (grid puppy) (grid animal)).filter (·.implicit)).isSome := by
    decide +kernel
  obtain ⟨c, hc⟩ := Option.isSome_iff_exists.1 hconverts
  obtain ⟨hcast, himplicit⟩ := Option.filter_eq_some_iff.1 hc
  obtain ⟨hlisted, hcandidate⟩ :=
    implicit_targets_complete (by rfl) (by rfl) (by decide) hcast himplicit
  exact ⟨rfl, rfl, by decide, ⟨c, hcast, himplicit⟩, by decide +kernel, hlisted,
    (hcandidate Library.registry List.mem_cons_self _).1⟩

end RuleExpr

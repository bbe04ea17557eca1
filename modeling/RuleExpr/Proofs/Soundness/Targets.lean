import RuleExpr.Binder.Conditional
import RuleExpr.Proofs.Cast.Nearest
import RuleExpr.Proofs.Soundness.Casts

/-!
# Conversions Within Closed Sets of Types

What a registry finds for types of a closed set stays in the set, if its casts and the targets it
names do: the common type of two types as well.  The standard registry is such a registry.
-/

namespace RuleExpr

/-- What a registry finds for types in `O` is in `O`. -/
structure Registry.Keeps (r : Registry) (O : Ty → Prop) : Prop where
  cast : ∀ ⦃a b : Ty⦄ ⦃c : Cast⦄, O a → O b → r.cast a b = .ok (some c) → O c.target
  targets : ∀ p ∈ r.providers, ∀ ⦃a : Ty⦄, O a → ∀ t ∈ p.targets a, O t

/-- A lookup fails for types in `O`. -/
def Registry.FailsIn (r : Registry) (O : Ty → Prop) (e : CastError) : Prop :=
  ∃ a b, O a ∧ O b ∧ (r.cast a b = .error e ∨ r.commonType a b = .error e)

namespace Registry.Keeps

variable {r : Registry} {O : Ty → Prop} {a b t : Ty} {c : Cast} (h : r.Keeps O) (ha : O a)
  (hb : O b)

include h ha hb

theorem implicitCast (hcast : r.implicitCast a b = .ok (some c)) : O c.target := by
  rcases implicitCast_eq_some hcast with ⟨-, rfl⟩ | hcast
  · exact ha
  · exact h.cast ha hb hcast

/-- The candidates are the two types and what the providers name for either of them. -/
theorem candidates : ∀ u ∈ r.candidates a b, O u := by
  intro u hu
  obtain ⟨⟨key, t⟩, hmem, rfl⟩ := List.mem_map.1 hu
  rcases Assoc.mem_merge hmem with hmem | hmem
  · cases hmem
  · obtain ⟨named, hnamed, hpair⟩ := List.mem_map.1 hmem
    cases hpair
    rcases List.mem_cons.1 hnamed with rfl | hnamed
    · exact ha
    rcases List.mem_cons.1 hnamed with rfl | hnamed
    · exact hb
    obtain ⟨provider, hprovider, htarget⟩ := List.mem_flatMap.1 hnamed
    rcases List.mem_append.1 htarget with htarget | htarget
    · exact h.targets provider hprovider ha _ htarget
    · exact h.targets provider hprovider hb _ htarget

theorem commonType (hcommon : r.commonType a b = .ok (some t)) : O t := by
  by_cases hkey : a.key = b.key
  · rw [commonType_of_key_eq hkey] at hcommon
    cases hcommon
    exact ha
  · exact h.candidates ha hb t (nearest_of_commonType hkey hcommon).1

end Registry.Keeps

namespace Ty.Closed

variable {O : Ty → Prop} {a b t u : Ty} (h : Closed O)

include h

theorem box (ht : O t) : O t.box := by
  cases t with
  | primitive p => exact h.builtin rfl
  | _ => exact ht

theorem ofNumericKind (kind : NumericKind) : O (.ofNumericKind kind) := by
  cases kind <;> exact h.builtin rfl

theorem nextLevel (ht : O t) (level : Nat) : ∀ entry ∈ nextLevel t level, O entry.1 := by
  intro entry hmem
  obtain ⟨super, hsuper, rfl⟩ := List.mem_map.1 hmem
  exact h.super ht hsuper

/-- The search upwards meets super-types alone. -/
theorem collect {queue found : Queue} (hqueue : ∀ entry ∈ queue, O entry.1)
    (hfound : ∀ entry ∈ found, O entry.1) : ∀ entry ∈ Ty.collect queue found, O entry.1 := by
  fun_induction Ty.collect queue found with
  | case1 => exact hfound
  | case2 found t level queue _ ih =>
    rw [List.forall_mem_cons] at hqueue
    exact ih hqueue.2 hfound
  | case3 found t level queue _ ih =>
    rw [List.forall_mem_cons] at hqueue
    refine ih (List.forall_mem_append.2 ⟨hqueue.2, h.nextLevel hqueue.1 _⟩) ?_
    exact List.forall_mem_append.2 ⟨hfound, List.forall_mem_singleton.2 hqueue.1⟩

theorem ancestors (ht : O t) : ∀ entry ∈ t.ancestors, O entry.1 :=
  h.collect (h.nextLevel ht 0) (List.forall_mem_nil _)

theorem extendChain {chain : List Ty} (ht : O t) (hchain : ∀ u ∈ chain, O u) :
    ∀ u ∈ Ty.extendChain t chain, O u := by
  fun_induction Ty.extendChain t chain with
  | case1 => exact hchain
  | case2 => exact hchain
  | case3 t chain u hu _ ih =>
    have hO : O u := h.super ht (List.mem_of_find?_eq_some hu)
    exact ih hO (List.forall_mem_append.2 ⟨hchain, List.forall_mem_singleton.2 hO⟩)

theorem superclassChain (ht : O t) : ∀ u ∈ t.superclassChain, O u :=
  h.extendChain ht (List.forall_mem_nil _)

/-- A common superclass is found on the chain of the first type. -/
theorem commonSuperclass (ha : O a) (hcommon : commonSuperclass a b = some t) : O t := by
  unfold RuleExpr.commonSuperclass at hcommon
  split at hcommon
  · cases hcommon
  · have hmem := (List.mem_filter.1 (List.mem_of_find?_eq_some hcommon)).1
    rcases List.mem_cons.1 hmem with rfl | hmem
    · exact ha
    · exact h.superclassChain ha t hmem

theorem numericTargets (kind : NumericKind) : ∀ u ∈ numericTargets kind, O u := by
  intro u hu
  rcases List.mem_append.1 hu with hu | hu
  · rcases List.mem_append.1 hu with hu | hu
    · split at hu
      · rcases List.mem_cons.1 hu with rfl | hu
        · exact h.builtin rfl
        · obtain ⟨wider, -, hu⟩ := List.mem_flatMap.1 hu
          simp only [List.mem_cons, List.not_mem_nil, or_false] at hu
          rcases hu with rfl | rfl <;> exact h.builtin rfl
      · cases hu
    · split at hu
      · rw [List.mem_singleton.1 hu]
        exact h.builtin rfl
      · cases hu
  · split at hu
    · rw [List.mem_singleton.1 hu]
      exact h.builtin rfl
    · cases hu

/-- Numbers lead to numbers, and everything else upwards. -/
theorem scalarTargets (ht : O t) : ∀ u ∈ scalarTargets t, O u := by
  intro u hu
  rcases List.mem_append.1 hu with hu | hu
  · split at hu
    · rcases List.mem_append.1 hu with hu | hu
      · split at hu
        · rw [List.mem_singleton.1 hu]
          exact h.builtin rfl
        · cases hu
      · exact h.numericTargets _ u (List.mem_filter.1 hu).1
    · cases hu
  · obtain ⟨entry, hentry, rfl⟩ := List.mem_map.1 hu
    exact h.ancestors (h.box ht) entry hentry

/-- Arrays lead to the arrays over what their elements lead to. -/
theorem structuralTargets (ht : O t) : ∀ u ∈ structuralTargets t, O u := by
  fun_induction RuleExpr.structuralTargets t with
  | case5 | case6 =>
    intro u hu
    rw [List.mem_singleton.1 hu]
    exact h.builtin rfl
  | case7 => exact List.forall_mem_nil _
  | case8 component _ ih =>
    intro u hu
    obtain ⟨target, htarget, rfl⟩ := List.mem_map.1 hu
    exact h.array (ih (h.component ht rfl) target htarget)
  | case9 => exact h.scalarTargets ht
  | _ => exact List.forall_mem_nil _

/-- The library converts to built-in numbers. -/
theorem libraryTargets (a : Ty) : ∀ u ∈ Library.casts.targets a, O u := by
  intro u hu
  obtain ⟨entry, hentry, rfl⟩ := List.mem_map.1 hu
  obtain ⟨kind, -, ⟨key, hbuiltin⟩, -⟩ := Library.casts_convertsTo (List.mem_filter.1 hentry).1
  exact h.builtin hbuiltin

end Ty.Closed

/-- A structural cast ends at the type it was asked for, or where it started. -/
theorem IsStructural.target_mem {O : Ty → Prop} {a b : Ty} {c : Cast} (h : IsStructural a b c)
    (ha : O a) (hb : O b) : O c.target := by
  rw [h.target_eq]
  split
  · exact ha
  · exact hb

/-- A cast ends at the type it was asked for, or where it started. -/
theorem Library.registry_keeps {O : Ty → Prop} (h : Ty.Closed O) : Library.registry.Keeps O where
  cast a b c ha hb hcast := by
    rcases registry_cast hcast with hstructural | ⟨entry, hcalls⟩
    · exact hstructural.target_mem ha hb
    · rw [hcalls.target_eq]
      exact hb
  targets p hp a ha := by
    rcases List.mem_cons.1 hp with rfl | hp
    · exact h.structuralTargets ha
    · rw [List.mem_singleton.1 hp]
      exact h.libraryTargets a

end RuleExpr

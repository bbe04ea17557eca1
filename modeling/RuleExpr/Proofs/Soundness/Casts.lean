import RuleExpr.Bound.Eval
import RuleExpr.Proofs.Cast.Registry
import RuleExpr.Proofs.Soundness.Assignable
import Mathlib.Logic.Relation

/-!
# Casts Preserve Assignability

A cast of the standard registry turns a value of its source type into a value of its target type,
or fails in an expected way.  The one exception is a cast down from a super-type, which hands on its
value unchecked: it preserves assignability only where the target holds everything that the source
holds, and `Cast.Safe` says so.
-/

namespace RuleExpr

open Relation (ReflTransGen)

variable {d : Declarations} {O : Ty → Prop} {v : Value} {a b t : Ty}

/-- `u` is a direct super-type of `t`. -/
def Ty.Extends (t u : Ty) : Prop := u ∈ t.supers

/-- A type found by a walk upwards stands above one that the walk started from. -/
theorem Ty.exists_of_levelOf {target : TypeKey} {queue : Queue} {visited : List TypeKey}
    (h : (levelOf target queue visited).isSome) :
    ∃ entry ∈ queue, ∃ u, ReflTransGen Extends entry.1 u ∧ u.key = target := by
  fun_induction levelOf target queue visited with
  | case1 => cases h
  | case2 t level queue visited hkey =>
    exact ⟨(t, level), List.mem_cons_self, t, .refl, hkey⟩
  | case3 t level queue visited _ _ ih =>
    obtain ⟨entry, hmem, hfound⟩ := ih h
    exact ⟨entry, List.mem_cons_of_mem _ hmem, hfound⟩
  | case4 t level queue visited _ _ ih =>
    obtain ⟨entry, hmem, u, habove, hkey⟩ := ih h
    rcases List.mem_append.1 hmem with hmem | hmem
    · exact ⟨entry, List.mem_cons_of_mem _ hmem, u, habove, hkey⟩
    · obtain ⟨super, hsuper, rfl⟩ := List.mem_map.1 hmem
      exact ⟨(t, level), List.mem_cons_self, u, habove.head hsuper, hkey⟩

theorem Ty.exists_of_ancestorDistance (h : (a.ancestorDistance b).isSome) :
    ∃ u, ReflTransGen Extends a u ∧ u.key = b.key := by
  unfold ancestorDistance at h
  split at h
  case isTrue hkey => exact ⟨a, .refl, hkey⟩
  case isFalse =>
    obtain ⟨entry, hmem, u, habove, hkey⟩ := exists_of_levelOf h
    obtain ⟨super, hsuper, rfl⟩ := List.mem_map.1 hmem
    exact ⟨u, habove.head hsuper, hkey⟩

namespace Coherent

theorem assignable_of_above (hd : Coherent d O) (ha : O a) (h : ReflTransGen Ty.Extends a b)
    (hv : Assignable d v a) : O b ∧ Assignable d v b := by
  induction h with
  | refl => exact ⟨ha, hv⟩
  | tail _ hstep ih =>
    obtain ⟨hb, hv⟩ := ih
    exact ⟨hd.super hb hstep, hd.assignable_of_super hb hstep hv⟩

/-- A value is assignable to every ancestor of its type. -/
theorem assignable_of_ancestor (hd : Coherent d O) (ha : O a) (hb : O b)
    (h : (a.ancestorDistance b).isSome) (hv : Assignable d v a) : Assignable d v b := by
  obtain ⟨u, habove, hkey⟩ := Ty.exists_of_ancestorDistance h
  obtain ⟨hu, hv⟩ := hd.assignable_of_above ha habove hv
  rw [← hd.eq_of_key hu hb hkey]
  exact hv

end Coherent

theorem Value.numericKind?_of_numberAs? {value converted : Value} {kind : NumericKind}
    (h : value.numberAs? kind = some converted) : converted.numericKind? = some kind := by
  cases kind <;> simp only [numberAs?, Option.map_eq_some_iff] at h <;> obtain ⟨_, -, rfl⟩ := h <;>
    rfl

theorem Value.isNull_of_numericKind? {value : Value} {kind : NumericKind}
    (h : value.numericKind? = some kind) : value.isNull = false := by
  cases value <;> first | rfl | cases h

/-- What converting a value gives: null for null, else a number of the kind or a failure. -/
theorem Value.convert_cases (value : Value) (kind : NumericKind) :
    value.isNull ∧ value.convert kind = .ok .null ∨
      value.isNull = false ∧
        ((∃ converted, value.convert kind = .ok converted ∧
            converted.numericKind? = some kind) ∨
          value.convert kind = .error (.invalidConversion value.render kind.label)) := by
  unfold convert
  split
  case isTrue hnull => exact .inl ⟨hnull, rfl⟩
  case isFalse hnull =>
    refine .inr ⟨Bool.eq_false_iff.2 hnull, ?_⟩
    split
    case h_1 converted hconverted =>
      exact .inl ⟨converted, rfl, numericKind?_of_numberAs? hconverted⟩
    case h_2 => exact .inr rfl

theorem convert_lands {kind : NumericKind} (ht : t.holds kind)
    (hnull : v.isNull → t.isPrimitive = false) : Lands (Assignable d · t) (v.convert kind) := by
  rcases v.convert_cases kind with ⟨hv, h⟩ | ⟨-, ⟨converted, h, hkind⟩ | h⟩
  · rw [h]
    exact .null (hnull hv)
  · rw [h]
    exact .number hkind ht
  · rw [h]
    rfl

/-- Casts up, and of null, hand on values that the target holds. -/
theorem StructuralKind.assignable {kind : CastKind} (hd : Coherent d O) (ha : O a) (hb : O b)
    (h : StructuralKind a b kind) (hkind : kind = .upcast ∨ kind = .nullToReference)
    (hv : Assignable d v a) : Assignable d v b := by
  induction h generalizing v with
  | null hreference =>
    rw [hv.eq_null]
    refine .null ?_
    rename_i b
    cases b <;> first | rfl | cases hreference
  | object => exact .top rfl
  | up h => exact hd.assignable_of_ancestor ha hb h hv
  | array _ _ _ hinner ih =>
    have ha' := hd.component ha rfl
    have hb' := hd.component hb rfl
    rcases hv.null_or_array rfl with rfl | ⟨elements, rfl, helements⟩
    · exact .null rfl
    · exact .array rfl fun e he => ih ha' hb' hinner (helements e he)
  | _ => simp at hkind

def Cast.isDowncast (c : Cast) : Bool :=
  match c.kind with
  | .downcast => true
  | _ => false

/-- A cast down hands on its value unchecked, so it is safe only where the target holds all that
the source holds. -/
def Cast.Safe (d : Declarations) (c : Cast) : Prop :=
  c.isDowncast → ∀ v, Assignable d v c.source → Assignable d v c.target

/-- What a structural cast does to a value that its target may be asked to hold. -/
theorem StructuralKind.lands {kind : CastKind} (hd : Coherent d O) (ha : O a) (hb : O b)
    (h : StructuralKind a b kind)
    (hsafe : kind = .downcast → ∀ v, Assignable d v a → Assignable d v b)
    (hv : Assignable d v a) (hnull : v.isNull → b.isPrimitive = false) (frames : Frames) :
    Lands (Assignable d · b) (kind.apply v frames).1 := by
  cases h with
  | identity hkey =>
    rw [CastKind.apply, ← hd.eq_of_key ha hb hkey]
    exact hv
  | null hreference =>
    rw [CastKind.apply]
    exact StructuralKind.assignable hd ha hb (.null hreference) (.inr rfl) hv
  | boxObject => rw [CastKind.apply]; exact .top rfl
  | object => rw [CastKind.apply]; exact .top rfl
  | box p => rw [CastKind.apply]; exact hv.box
  | unbox p =>
    rw [CastKind.apply]
    exact hv.unbox (Bool.eq_false_iff.2 fun h => by cases hnull h)
  | widen _ hwanted =>
    rw [CastKind.apply]
    exact convert_lands (Ty.holds_of_numericKind? hwanted) hnull
  | narrow _ hwanted =>
    rw [CastKind.apply]
    exact convert_lands (Ty.holds_of_numericKind? hwanted) hnull
  | boxAncestor hancestor =>
    rw [CastKind.apply]
    exact hd.assignable_of_ancestor (hd.builtin rfl) hb hancestor hv.box
  | unboxUnchecked hp =>
    rw [CastKind.apply]
    exact convert_lands (Ty.holds_of_numericKind? hp) hnull
  | up hancestor =>
    rw [CastKind.apply]
    exact hd.assignable_of_ancestor ha hb hancestor hv
  | down =>
    rw [CastKind.apply]
    exact hsafe rfl v hv
  | array ha' hb' h hkind =>
    rw [CastKind.apply]
    exact StructuralKind.assignable hd ha hb (.array ha' hb' h hkind) (.inl rfl) hv

/-- A method that converts its argument to numbers of a kind. -/
def ConvertsTo (m : Method) (kind : NumericKind) : Prop :=
  m.returns.holds kind ∧ (∃ key, m.returns.id? = some (.builtin key)) ∧
    ∀ receiver arguments (frames : Frames),
      (m.invoke receiver arguments frames).1 = (arguments.getD 0 .null).convert kind

theorem CastLibrary.method_of_conversion? {m : Method} {distance : Nat} {entry : Conversion}
    (h : conversion? m distance = some entry) : entry.method = m := by
  unfold conversion? at h
  split at h
  · split at h
    · cases h
      rfl
    · split at h
      · cases h
        rfl
      · cases h
  · cases h

namespace Library

theorem conversion_convertsTo {name : String} {source target : Ty} {kind : NumericKind}
    {distance : Nat} {entry : Conversion} {key : TypeKey} (htarget : target.holds kind)
    (hbuiltin : target.id? = some (.builtin key))
    (h : conversion name source target kind distance = some entry) :
    ConvertsTo entry.method kind := by
  rw [CastLibrary.method_of_conversion? h]
  refine ⟨htarget, ⟨key, hbuiltin⟩, ?_⟩
  intro receiver arguments frames
  rw [unary, operator, Method.invoke]
  rfl

theorem id?_ofNumericKind (kind : NumericKind) :
    (Ty.ofNumericKind kind).id? = some (.builtin (Ty.ofNumericKind kind).key) := by
  cases kind <;> rfl

theorem wrapping_convertsTo {wrapper : MetaKind} {kind : NumericKind} {entry : Conversion}
    (h : wrapping wrapper kind = some entry) : ConvertsTo entry.method wrapper.numeric := by
  unfold wrapping at h
  split at h
  · exact conversion_convertsTo (Ty.holds_wrapper _) rfl h
  · cases h

theorem unwrapping_convertsTo {wrapper : MetaKind} {kind : NumericKind} {entry : Conversion}
    (h : unwrapping wrapper kind = some entry) : ConvertsTo entry.method kind := by
  have hholds := Ty.holds_ofNumericKind kind
  unfold unwrapping at h
  split at h
  · exact conversion_convertsTo hholds (id?_ofNumericKind kind) h
  · exact conversion_convertsTo hholds (id?_ofNumericKind kind) h

theorem rewrapping_convertsTo {wrapper wider : MetaKind} {entry : Conversion}
    (h : rewrapping wrapper wider = some entry) : ConvertsTo entry.method wider.numeric := by
  unfold rewrapping at h
  split at h
  · exact conversion_convertsTo (Ty.holds_wrapper _) rfl h
  · cases h

theorem casts_convertsTo {entry : Conversion} (h : entry ∈ casts.entries) :
    ∃ kind, ConvertsTo entry.method kind := by
  obtain ⟨wrapper, -, h⟩ := List.mem_flatMap.1 h
  rcases List.mem_append.1 h with h | h
  · obtain ⟨kind, -, h⟩ := List.mem_flatMap.1 h
    rcases List.mem_append.1 h with h | h
    · exact ⟨_, wrapping_convertsTo (Option.mem_toList.1 h)⟩
    · exact ⟨_, unwrapping_convertsTo (Option.mem_toList.1 h)⟩
  · obtain ⟨wider, -, h⟩ := List.mem_flatMap.1 h
    exact ⟨_, rewrapping_convertsTo (Option.mem_toList.1 h)⟩

end Library

section Registry

variable {c : Cast} (hd : Coherent d O) (hc : O c.target)
  (hnull : v.isNull → c.target.isPrimitive = false) (frames : Frames)

include hd hc hnull

theorem IsStructural.lands (hcast : IsStructural a b c) (ha : O a) (hsafe : c.Safe d)
    (hv : Assignable d v a) : Lands (Assignable d · c.target) (c.kind.apply v frames).1 := by
  have htarget := hcast.target_eq
  have hkind : StructuralKind a c.target c.kind := by
    cases hidentity : c.isIdentity with
    | true =>
      rw [hidentity, if_pos rfl] at htarget
      unfold Cast.isIdentity at hidentity
      split at hidentity
      case h_1 hkind =>
        rw [htarget, hkind]
        exact .identity rfl
      case h_2 => cases hidentity
    | false =>
      rw [hidentity, if_neg Bool.false_ne_true] at htarget
      exact htarget ▸ hcast.kind
  refine hkind.lands hd ha hc ?_ hv hnull frames
  intro hdown
  rw [← hcast.source_eq]
  exact hsafe (by rw [Cast.isDowncast, hdown])

theorem CastLibrary.Calls.lands {entry : Conversion}
    (hcast : Library.casts.Calls a b c entry) :
    Lands (Assignable d · c.target) (c.kind.apply v frames).1 := by
  obtain ⟨kind, hholds, ⟨key, hbuiltin⟩, hconvert⟩ := Library.casts_convertsTo hcast.mem
  have hreturns : entry.method.returns = c.target :=
    hd.eq_of_key (hd.builtin hbuiltin) hc (hcast.target_eq ▸ hcast.target_key)
  rw [hcast.kind_eq, CastKind.apply, hconvert]
  exact convert_lands (hreturns ▸ hholds) hnull

end Registry

/-- A safe cast gives a value of its target type for every value of its source type. -/
theorem Library.registry_cast_lands {c : Cast} (hd : Coherent d O) (ha : O a)
    (h : registry.cast a b = .ok (some c)) (hc : O c.target) (hsafe : c.Safe d)
    (hv : Assignable d v a) (frames : Frames) :
    Lands (Assignable d · c.target) (c.apply v frames).1 := by
  have hkind : (v.isNull → c.target.isPrimitive = false) →
      Lands (Assignable d · c.target) (c.kind.apply v frames).1 := by
    intro hnull
    rcases registry_cast h with hcast | ⟨entry, hcast⟩
    · exact hcast.lands hd hc hnull frames ha hsafe hv
    · exact hcast.lands hd hc hnull frames
  obtain ⟨source, target, kind, implicit, distance⟩ := c
  rw [Cast.apply]
  split
  case isTrue => rfl
  case isFalse hprimitive => exact hkind fun hv => by simpa [hv] using hprimitive

end RuleExpr

import RuleExpr.Proofs.Cast.ThereAndBack

/-!
# Instances of a Type

Which values are instances of a type, by the names of classes alone: an object is an instance of its
class and of everything above it, whatever fields it has.  This is what a check at run time could
look at.  A value stays an instance on the way up, as long as a key stands for one type and nothing
is declared below a type whose values are no objects.
-/

namespace RuleExpr

open Relation (ReflTransGen)

/-- The type or one above it has the key of `u`. -/
def Ty.IsA (t u : Ty) : Prop := ∃ w, ReflTransGen Extends t w ∧ w.key = u.key

theorem Ty.isA_iff {t u : Ty} : t.IsA u ↔ t.key = u.key ∨ ∃ w ∈ t.supers, w.IsA u := by
  constructor
  · rintro ⟨w, habove, hkey⟩
    rcases ReflTransGen.cases_head_iff.1 habove with rfl | ⟨super, hsuper, habove⟩
    · exact .inl hkey
    · exact .inr ⟨super, hsuper, w, habove, hkey⟩
  · rintro (hkey | ⟨super, hsuper, w, habove, hkey⟩)
    · exact ⟨t, .refl, hkey⟩
    · exact ⟨w, habove.head hsuper, hkey⟩

/-- Whether a walk upwards from the type meets the key of `u`. -/
def Ty.meets (t u : Ty) : Bool :=
  t.key = u.key || t.supers.attach.any fun ⟨w, _⟩ => w.meets u
termination_by t.weight
decreasing_by exact weight_lt_of_mem_supers ‹_›

theorem Ty.meets_iff_isA (t u : Ty) : t.meets u = true ↔ t.IsA u := by
  rw [meets, isA_iff, Bool.or_eq_true, decide_eq_true_iff, List.any_eq_true]
  apply or_congr_right
  constructor
  · rintro ⟨⟨w, hw⟩, -, hmeets⟩
    exact ⟨w, hw, (meets_iff_isA w u).1 hmeets⟩
  · rintro ⟨w, hw, hisA⟩
    exact ⟨⟨w, hw⟩, List.mem_attach _ _, (meets_iff_isA w u).2 hisA⟩
termination_by t.weight
decreasing_by all_goals exact weight_lt_of_mem_supers ‹_›

instance (t u : Ty) : Decidable (t.IsA u) := decidable_of_iff _ (t.meets_iff_isA u)

/-- Types that a class may extend.  The others have values of their own form, or none. -/
def Ty.isExtendable : Ty → Bool
  | primitive _ | boxed _ | null | array _ => false
  | _ => true

/-- Types told apart by their keys, among which classes and interfaces extend no primitive or boxed
type, no array and not the type of null. -/
structure Ty.Nominal (O : Ty → Prop) : Prop extends Ty.Keyed O where
  extendable : ∀ {t u : Ty}, O t → u ∈ t.supers → u.isExtendable

/-- The value is an instance of the type; `classOf` has the classes of the objects.  A type of
numbers has the values of its kind, one with elements has arrays of such, null is an instance of all
types that are not primitive, and the root has everything. -/
inductive InstanceOf (classOf : String → Option Ty) : Value → Ty → Prop
  | null {t : Ty} (ht : t.isPrimitive = false) : InstanceOf classOf .null t
  | bool {b : Bool} {t : Ty} (ht : t.isBooleanLike) : InstanceOf classOf (.bool b) t
  | number {v : Value} {t : Ty} {kind : NumericKind} (hv : v.numericKind? = some kind)
      (ht : t.holds kind) : InstanceOf classOf v t
  | string {text : String} : InstanceOf classOf (.string text) .string
  | array {elements : List Value} {t component : Ty} (ht : t.component? = some component)
      (helements : ∀ v ∈ elements, InstanceOf classOf v component) :
      InstanceOf classOf (.array elements) t
  | object {typeName : String} {fields : List (String × Value)} {id : Nat} {name : QName}
      {supers : List Ty} {t : Ty} (hclass : classOf typeName = some (.record id name supers))
      (ht : (Ty.record id name supers).IsA t) : InstanceOf classOf (.object typeName fields) t
  | root {v : Value} : InstanceOf classOf v .object

/-- The classes of objects are among the types. -/
def ClassesIn (classOf : String → Option Ty) (O : Ty → Prop) : Prop :=
  ∀ typeName c, classOf typeName = some c → O c

variable {O : Ty → Prop} {classOf : String → Option Ty} {v : Value} {t u : Ty}

namespace Ty.Nominal

variable (hO : Nominal O)

include hO

theorem extendable_of_above (ht : O t) (hextendable : t.isExtendable)
    (h : ReflTransGen Extends t u) : O u ∧ u.isExtendable := by
  induction h with
  | refl => exact ⟨ht, hextendable⟩
  | tail _ hstep ih => exact ⟨hO.super ih.1 hstep, hO.extendable ih.1 hstep⟩

/-- The type that has the key is the one above. -/
theorem above_of_isA {id : Nat} {name : QName} {supers : List Ty}
    (hclass : O (.record id name supers)) (hu : O u) (h : (Ty.record id name supers).IsA u) :
    ReflTransGen Extends (.record id name supers) u ∧ u.isExtendable := by
  obtain ⟨w, habove, hkey⟩ := h
  obtain ⟨hw, hextendable⟩ := hO.extendable_of_above hclass rfl habove
  obtain rfl := hO.eq_of_key hw hu hkey
  exact ⟨habove, hextendable⟩

end Ty.Nominal

namespace InstanceOf

/-- An object is an instance of what its class is, and of the root. -/
theorem isA_of_object {c : Ty} {typeName : String} {fields : List (String × Value)}
    (hclass : classOf typeName = some c) (h : InstanceOf classOf (.object typeName fields) t) :
    t = .object ∨ c.IsA t := by
  cases h with
  | number hv => cases hv
  | object hclass' hisA =>
    cases hclass.symm.trans hclass'
    exact .inr hisA
  | root => exact .inl rfl

section Nominal

variable (hO : Ty.Nominal O) (hclasses : ClassesIn classOf O)

include hO hclasses

/-- A value stays an instance one level up. -/
theorem of_super (ht : O t) (hu : u ∈ t.supers) (h : InstanceOf classOf v t) :
    InstanceOf classOf v u := by
  cases h with
  | null =>
    refine .null ?_
    have hextendable := hO.extendable ht hu
    cases u <;> first | rfl | cases hextendable
  | bool ht' =>
    rw [Ty.supers_of_isBooleanLike ht'] at hu
    cases hu
  | number hv hholds =>
    rcases Ty.isDeclared_or_number_of_super hu with hdeclared | rfl
    · cases t <;> simp_all [Ty.isDeclared, Ty.holds, Ty.numericKind?]
    · exact .number hv rfl
  | string => cases hu
  | array ht' => cases t <;> simp_all [Ty.component?, Ty.supers]
  | object hclass hisA =>
    obtain ⟨habove, -⟩ := hO.above_of_isA (hclasses _ _ hclass) ht hisA
    exact .object hclass ⟨u, habove.tail hu, rfl⟩
  | root => cases hu

theorem of_above (ht : O t) (habove : ReflTransGen Ty.Extends t u) (h : InstanceOf classOf v t) :
    O u ∧ InstanceOf classOf v u := by
  induction habove with
  | refl => exact ⟨ht, h⟩
  | tail _ hstep ih => exact ⟨hO.super ih.1 hstep, ih.2.of_super hO hclasses ih.1 hstep⟩

/-- A value is an instance of every ancestor of its type. -/
theorem of_ancestor (ht : O t) (hu : O u) (hancestor : (t.ancestorDistance u).isSome)
    (h : InstanceOf classOf v t) : InstanceOf classOf v u := by
  obtain ⟨levels, hlevels⟩ := Option.isSome_iff_exists.1 hancestor
  exact (h.of_above hO hclasses ht (hO.above ht hu hlevels)).2

theorem eq_null (h : InstanceOf classOf v .null) : v = .null := by
  cases h with
  | null => rfl
  | bool ht | array ht => cases ht
  | number _ ht => simp [Ty.holds, Ty.numericKind?] at ht
  | object hclass hisA => cases (hO.above_of_isA (hclasses _ _ hclass) (hO.builtin rfl) hisA).2

/-- A boxed value is the value itself. -/
theorem box {p : Primitive} (h : InstanceOf classOf v (.primitive p)) :
    InstanceOf classOf v (.boxed p) := by
  cases h with
  | bool ht => cases p <;> first | exact .bool rfl | cases ht
  | number hv ht => exact .number hv ht
  | null ht | array ht => cases ht
  | object hclass hisA => cases (hO.above_of_isA (hclasses _ _ hclass) (hO.builtin rfl) hisA).2

/-- Without its null, a boxed type has the values that it boxes. -/
theorem unbox {p : Primitive} (hv : v.isNull = false) (h : InstanceOf classOf v (.boxed p)) :
    InstanceOf classOf v (.primitive p) := by
  cases h with
  | null => cases hv
  | bool ht => cases p <;> first | exact .bool rfl | cases ht
  | number hv ht => exact .number hv ht
  | array ht => cases ht
  | object hclass hisA => cases (hO.above_of_isA (hclasses _ _ hclass) (hO.builtin rfl) hisA).2

theorem null_or_array (ht : O (.array t)) (h : InstanceOf classOf v (.array t)) :
    v = .null ∨ ∃ elements, v = .array elements ∧ ∀ e ∈ elements, InstanceOf classOf e t := by
  cases h with
  | null => exact .inl rfl
  | array ht' helements =>
    cases ht'
    exact .inr ⟨_, rfl, helements⟩
  | bool ht' => cases ht'
  | number _ ht' => simp [Ty.holds, Ty.numericKind?] at ht'
  | object hclass hisA => cases (hO.above_of_isA (hclasses _ _ hclass) ht hisA).2

end Nominal

end InstanceOf

end RuleExpr

import RuleExpr.Proofs.NearestCommonType
import RuleExpr.Proofs.RuntimeCasts
import RuleExpr.Proofs.UpcastOrder

/-!
# Chains of Conversions

Implicit conversions do not compose.  Null converts to the box of a number and the box to the
number, but null does not convert to the number; and a wrapper converts to plain numbers, but not on
to their boxes.  `Ty.Precedes` is the preorder that conversions keep to, so a chain of them does not
lead out of it.  `Ty.isApart` names the pairs in it that have no conversion of their own.

What a class extends is taken to be a class or interface, or another type that nothing but its
subtypes converts to.  A class below a type of numbers would stand below every wider one as well,
and convert to none of them.
-/

namespace RuleExpr

open Relation (ReflTransGen)

/-- Kind of the numbers that a type holds, wrapped ones included. -/
def Ty.heldKind? : Ty → Option NumericKind
  | wrapper kind => some kind.numeric
  | t => t.numericKind?

/-- Types that convert by their values: those of numbers and of truth values. -/
def Ty.isValued (t : Ty) : Bool := t.heldKind?.isSome || t.isBooleanLike

/-- Types of neither kind that are not null and no arrays either: all that converts to them is what
stands below them. -/
def Ty.isPlain : Ty → Bool
  | string | object | number | list | record _ _ _ | interface _ _ _ | collection _ _ _ => true
  | _ => false

/-- The same kind or a wider one. -/
def NumericKind.UpTo (kind wider : NumericKind) : Prop := kind = wider ∨ kind.widensTo wider

instance (kind wider : NumericKind) : Decidable (kind.UpTo wider) :=
  inferInstanceAs (Decidable (_ ∨ _))

/-- What stands above a type among references: its ancestors and the root, everything above null,
and arrays as their components do. -/
inductive Ty.Rises : Ty → Ty → Prop
  | above {a b : Ty} (h : ReflTransGen Extends a b) : Rises a b
  | null {b : Ty} (hb : b.isReference) : Rises null b
  | root {a : Ty} (ha : a.isReference) : Rises a object
  | array {a b : Ty} (h : Rises a b) : Rises (array a) (array b)

/-- The preorder that implicit conversions keep to. -/
inductive Ty.Precedes : Ty → Ty → Prop
  | rises {a b : Ty} (h : Rises a b) : Precedes a b
  | null (p : Primitive) : Precedes null (primitive p)
  | root (p : Primitive) : Precedes (primitive p) object
  | numbers {a b : Ty} {kind wider : NumericKind} (ha : a.heldKind? = some kind)
      (hb : b.heldKind? = some wider) (h : kind.UpTo wider) : Precedes a b
  | number {a : Ty} {kind : NumericKind} (ha : a.heldKind? = some kind) : Precedes a number
  | booleans {a b : Ty} (ha : a.isBooleanLike) (hb : b.isBooleanLike) : Precedes a b

/-- Pairs in the preorder without a conversion from the one to the other: null and a primitive type,
a wrapper and a box in both directions, and a wrapper and the class of numbers. -/
def Ty.isApart : Ty → Ty → Bool
  | null, primitive _ | boxed _, wrapper _ | wrapper _, boxed _ | wrapper _, number => true
  | _, _ => false

/-- Types told apart by their keys, in which only plain types are extended. -/
structure Ty.PlainlyExtended (O : Ty → Prop) : Prop extends Ty.Keyed O where
  super_plain : ∀ {t u : Ty}, O t → u ∈ t.supers → u.isPlain

variable {O : Ty → Prop} {a b c t u : Ty} {kind wider widest : NumericKind}

theorem NumericKind.UpTo.trans (h : kind.UpTo wider) (h' : wider.UpTo widest) :
    kind.UpTo widest := by
  revert h h'
  cases kind <;> cases wider <;> cases widest <;> decide

namespace Ty

theorem isValued_of_heldKind? (h : t.heldKind? = some kind) : t.isValued := by
  rw [isValued, h]
  rfl

theorem isValued_of_isBooleanLike (h : t.isBooleanLike) : t.isValued := by
  rw [isValued, h, Bool.or_true]

theorem heldKind?_of_isBooleanLike (h : t.isBooleanLike) : t.heldKind? = none := by
  cases t with
  | primitive p | boxed p => cases p <;> first | rfl | cases h
  | _ => cases h

theorem isReference_of_isPlain (h : t.isPlain) : t.isReference := by
  cases t <;> first | rfl | cases h

theorem isReference_of_super (h : u ∈ t.supers) : t.isReference := by
  cases t <;> first | rfl | cases h

/-- There is nothing above a type without super-types. -/
theorem eq_of_above (ht : t.supers = []) (h : ReflTransGen Extends t u) : u = t := by
  rcases ReflTransGen.cases_head_iff.1 h with hsame | ⟨v, hv, -⟩
  · exact hsame.symm
  · rw [Extends, ht] at hv
    cases hv

/-- Only classes of numbers and the root stand above a type that converts by its values. -/
theorem Rises.of_isValued (ha : a.isValued) (h : a.Rises b) :
    b = a ∨ (∃ kind, a.heldKind? = some kind) ∧ b = .number ∨ b = .object := by
  cases h with
  | above h =>
    have hdeclared : a.isDeclared = false := by cases a <;> first | rfl | cases ha
    rcases above_of_not_declared hdeclared h with rfl | ⟨hsuper, rfl⟩
    · exact .inl rfl
    · refine .inr (.inl ⟨Option.isSome_iff_exists.1 ?_, rfl⟩)
      rw [isValued, Bool.or_eq_true] at ha
      refine ha.resolve_right fun hboolean => ?_
      rw [supers_of_isBooleanLike hboolean] at hsuper
      cases hsuper
  | null => cases ha
  | root => exact .inr (.inr rfl)
  | array => cases ha

theorem Rises.eq_of_object (h : Ty.object.Rises b) : b = .object := by
  cases h with
  | above h => exact eq_of_above rfl h
  | root => rfl

theorem Precedes.null_of_isValued (ht : t.isValued) : Ty.null.Precedes t := by
  cases t with
  | primitive p => exact .null p
  | void | error => cases ht
  | _ => exact .rises (.null rfl)

/-- Null precedes everything that a type of values precedes. -/
theorem Precedes.null_of_precedes (ha : a.isValued) (h : a.Precedes b) : Ty.null.Precedes b := by
  cases h with
  | rises h =>
    rcases h.of_isValued ha with rfl | ⟨-, rfl⟩ | rfl
    · exact null_of_isValued ha
    · exact .rises (.null rfl)
    · exact .rises (.null rfl)
  | null => cases ha
  | root | number => exact .rises (.null rfl)
  | numbers _ hwider => exact null_of_isValued (isValued_of_heldKind? hwider)
  | booleans _ hboolean => exact null_of_isValued (isValued_of_isBooleanLike hboolean)

theorem Precedes.object_of_isValued (ht : t.isValued) : t.Precedes object := by
  cases t with
  | primitive p => exact .root p
  | void | error => cases ht
  | _ => exact .rises (.root rfl)

namespace PlainlyExtended

variable (hO : PlainlyExtended O)

include hO

theorem above_cases (ha : O a) (h : ReflTransGen Extends a b) :
    O b ∧ (a = b ∨ a.isReference ∧ b.isPlain) := by
  induction h with
  | refl => exact ⟨ha, .inl rfl⟩
  | tail _ hstep ih =>
    obtain ⟨hb, hcases⟩ := ih
    refine ⟨hO.super hb hstep, .inr ⟨?_, hO.super_plain hb hstep⟩⟩
    rcases hcases with rfl | ⟨hreference, -⟩
    · exact isReference_of_super hstep
    · exact hreference

/-- Only the type itself and null are below a type that is not plain and no array. -/
theorem below_of_not_plain (ha : O a) (hplain : b.isPlain = false) (harray : b.isArray = false)
    (h : a.Rises b) : a = b ∨ a = .null ∧ b.isReference := by
  cases h with
  | above h =>
    rcases (hO.above_cases ha h).2 with hsame | ⟨-, hb⟩
    · exact .inl hsame
    · rw [hplain] at hb
      cases hb
  | null hb => exact .inr ⟨rfl, hb⟩
  | root => cases hplain
  | array => cases harray

theorem below_of_isValued (ha : O a) (hb : b.isValued) (h : a.Rises b) : a = b ∨ a = .null := by
  have hplain : b.isPlain = false ∧ b.isArray = false := by
    cases b <;> first | exact ⟨rfl, rfl⟩ | cases hb
  exact (hO.below_of_not_plain ha hplain.1 hplain.2 h).imp_right (·.1)

theorem isReference_of_rises (ha : O a) (hreference : a.isReference) (h : a.Rises b) :
    b.isReference := by
  cases h with
  | above h =>
    rcases (hO.above_cases ha h).2 with rfl | ⟨-, hb⟩
    · exact hreference
    · exact isReference_of_isPlain hb
  | null hb => exact hb
  | root | array => rfl

theorem rises_trans (ha : O a) (hb : O b) (h : a.Rises b) (h' : b.Rises c) : a.Rises c := by
  induction h generalizing c with
  | above h =>
    rcases (hO.above_cases ha h).2 with rfl | ⟨hreference, hplain⟩
    · exact h'
    · cases h' with
      | above h' => exact .above (h.trans h')
      | root => exact .root hreference
      | null | array => cases hplain
  | null hreference => exact .null (hO.isReference_of_rises hb hreference h')
  | root hreference =>
    rw [h'.eq_of_object]
    exact .root hreference
  | array h ih =>
    cases h' with
    | above h' =>
      rw [eq_of_above rfl h']
      exact .array h
    | root => exact .root rfl
    | array h' => exact .array (ih (hO.component ha rfl) (hO.component hb rfl) h')

theorem precedes_trans (ha : O a) (hb : O b) (h : a.Precedes b) (h' : b.Precedes c) :
    a.Precedes c := by
  cases h with
  | rises h =>
    -- Nothing but null is below a type that converts by its values.
    cases hvalued : b.isValued with
    | true =>
      rcases hO.below_of_isValued ha hvalued h with rfl | rfl
      · exact h'
      · exact h'.null_of_precedes hvalued
    | false =>
      cases h' with
      | rises h' => exact .rises (hO.rises_trans ha hb h h')
      | null p => rcases hO.below_of_not_plain ha rfl rfl h with rfl | ⟨rfl, -⟩ <;> exact .null p
      | root p => cases p <;> cases hvalued
      | numbers hkind | number hkind =>
        rw [isValued_of_heldKind? hkind] at hvalued
        cases hvalued
      | booleans hboolean =>
        rw [isValued_of_isBooleanLike hboolean] at hvalued
        cases hvalued
  | null p => exact h'.null_of_precedes (by cases p <;> rfl)
  | root p =>
    cases h' with
    | rises h' =>
      rw [h'.eq_of_object]
      exact .root p
    | numbers hobject | number hobject | booleans hobject => cases hobject
  | numbers hkind hwider hup =>
    cases h' with
    | rises h' =>
      rcases h'.of_isValued (isValued_of_heldKind? hwider) with rfl | ⟨-, rfl⟩ | rfl
      · exact .numbers hkind hwider hup
      · exact .number hkind
      · exact .object_of_isValued (isValued_of_heldKind? hkind)
    | null => cases hwider
    | root => exact .object_of_isValued (isValued_of_heldKind? hkind)
    | numbers hwider' hwidest hup' =>
      obtain rfl := Option.some.inj (hwider.symm.trans hwider')
      exact .numbers hkind hwidest (hup.trans hup')
    | number => exact .number hkind
    | booleans hboolean =>
      rw [heldKind?_of_isBooleanLike hboolean] at hwider
      cases hwider
  | number hkind =>
    cases h' with
    | rises h' =>
      cases h' with
      | above h' =>
        rw [eq_of_above rfl h']
        exact .number hkind
      | root => exact .object_of_isValued (isValued_of_heldKind? hkind)
    | numbers hnumber | number hnumber | booleans hnumber => cases hnumber
  | booleans hboolean hboolean' =>
    cases h' with
    | rises h' =>
      rcases h'.of_isValued (isValued_of_isBooleanLike hboolean') with rfl | ⟨⟨_, hkind⟩, rfl⟩ | rfl
      · exact .booleans hboolean hboolean'
      · rw [heldKind?_of_isBooleanLike hboolean'] at hkind
        cases hkind
      · exact .object_of_isValued (isValued_of_isBooleanLike hboolean)
    | null => cases hboolean'
    | root => exact .object_of_isValued (isValued_of_isBooleanLike hboolean)
    | numbers hkind | number hkind =>
      rw [heldKind?_of_isBooleanLike hboolean'] at hkind
      cases hkind
    | booleans _ hboolean'' => exact .booleans hboolean hboolean''

end PlainlyExtended

theorem isApart_self (t : Ty) : t.isApart t = false := by
  cases t <;> rfl

theorem Rises.isApart (h : a.Rises b) : a.isApart b = false := by
  cases h with
  | above h =>
    rcases ReflTransGen.cases_head_iff.1 h with rfl | ⟨u, hu, -⟩
    · exact isApart_self a
    · cases a with
      | boxed p =>
        rcases above_of_not_declared rfl h with rfl | ⟨-, rfl⟩ <;> rfl
      | null | wrapper => cases hu
      | _ => rfl
  | null hb => cases b <;> first | rfl | cases hb
  | root => cases a <;> rfl
  | array => rfl

theorem isApart_of_numericKind? (ha : a.numericKind? = some kind)
    (hb : b.numericKind? = some wider) : a.isApart b = false := by
  cases a with
  | boxed p => cases b <;> first | rfl | cases hb
  | null | wrapper => cases ha
  | _ => rfl

theorem heldKind?_of_numericKind? (h : t.numericKind? = some kind) : t.heldKind? = some kind := by
  cases t <;> first | exact h | cases h

theorem heldKind?_ofNumericKind (kind : NumericKind) :
    (ofNumericKind kind).heldKind? = some kind :=
  heldKind?_of_numericKind? (Library.numericKind?_ofNumericKind kind)

theorem precedes_box (p : Primitive) :
    (primitive p).Precedes (boxed p) ∧ (boxed p).Precedes (primitive p) := by
  cases p with
  | boolean => exact ⟨.booleans rfl rfl, .booleans rfl rfl⟩
  | _ => exact ⟨.numbers rfl rfl (.inl rfl), .numbers rfl rfl (.inl rfl)⟩

/-- Conversions of the library keep to the preorder, and none is between types that are apart. -/
theorem precedes_of_wraps {cost : Nat} (h : Library.Wraps a b cost) :
    a.Precedes b ∧ a.isApart b = false := by
  cases h with
  | wrap wrapper kind ha h =>
    subst ha
    exact ⟨.numbers (heldKind?_ofNumericKind kind) rfl h, by cases kind <;> rfl⟩
  | unwrap wrapper kind hb h =>
    subst hb
    exact ⟨.numbers rfl (heldKind?_ofNumericKind kind) (h.imp_left Eq.symm), by cases kind <;> rfl⟩
  | rewrap wrapper wider h => exact ⟨.numbers rfl rfl (.inr h), rfl⟩

/-- No scalar cast starts at the types that have no values. -/
theorem not_valueless_of_scalarCast {cast : Cast} (h : scalarCast a b = some cast) :
    a.isError = false ∧ a.isVoid = false := by
  unfold scalarCast at h
  split at h
  case isTrue => cases h
  case isFalse hplain =>
    simp only [Bool.or_eq_true, not_or, Bool.not_eq_true] at hplain
    exact ⟨hplain.1.1.1, hplain.1.2⟩

namespace PlainlyExtended

variable (hO : PlainlyExtended O) {cast : Cast}

include hO

/-- Casts up, and of null, go to what stands above. -/
theorem rises_of_structuralCast (ha : O a) (hb : O b) (h : structuralCast a b = some cast)
    (hkind : cast.kind = .upcast ∨ cast.kind = .nullToReference) : a.Rises b := by
  fun_induction structuralCast a b generalizing cast with
  | case1 =>
    cases h
    rcases hkind with hkind | hkind <;> cases hkind
  | case2 => cases h
  | case3 a b _ _ ih =>
    obtain ⟨inner, hinner, hlift⟩ := Option.bind_eq_some_iff.1 h
    -- Arrays rise where their components do, and no other cast of arrays goes up.
    have hrises := ih (hO.component ha rfl) (hO.component hb rfl) hinner
    rcases liftToArrays_cases hlift with ⟨hinner, rfl⟩ | ⟨-, rfl⟩
    · exact .array (hrises hinner)
    · rcases hkind with hkind | hkind <;> cases hkind
  | case4 a b _ harrays =>
    obtain ⟨herror, hvoid⟩ := not_valueless_of_scalarCast h
    have hstructural := (scalarCast_structural h).kind
    generalize cast.kind = kind at hstructural hkind
    cases hstructural with
    | null hreference => exact .null hreference
    | object hprimitive =>
      refine .root ?_
      cases a with
      | primitive => cases hprimitive
      | void => cases hvoid
      | error => cases herror
      | _ => rfl
    | up hlevels =>
      obtain ⟨levels, hlevels⟩ := Option.isSome_iff_exists.1 hlevels
      exact .above (hO.above ha hb hlevels)
    | array => exact absurd rfl (harrays _ _ rfl)
    | _ => simp at hkind

/-- Structural conversions keep to the preorder, and none is between types that are apart. -/
theorem precedes_of_structuralCast (ha : O a) (hb : O b) (h : structuralCast a b = some cast)
    (himplicit : cast.implicit = true) : a.Precedes b ∧ a.isApart b = false := by
  by_cases hup : cast.kind = .upcast ∨ cast.kind = .nullToReference
  · have hrises := hO.rises_of_structuralCast ha hb h hup
    exact ⟨.rises hrises, hrises.isApart⟩
  have hstructural := (structuralCast_structural h).kind
  rw [(structuralCast_marked h).implicit_eq] at himplicit
  generalize cast.kind = kind at hstructural hup himplicit
  cases hstructural with
  | identity hkey =>
    obtain rfl := hO.eq_of_key ha hb hkey
    exact ⟨.rises (.above .refl), isApart_self a⟩
  | null | object | up | array => simp at hup
  | boxObject p => exact ⟨.root p, rfl⟩
  | box p => exact ⟨(precedes_box p).1, rfl⟩
  | unbox p => exact ⟨(precedes_box p).2, rfl⟩
  | widen hkind hwider hwidens =>
    exact ⟨.numbers (heldKind?_of_numericKind? hkind) (heldKind?_of_numericKind? hwider)
      (.inr hwidens), isApart_of_numericKind? hkind hwider⟩
  | @boxAncestor p _ hlevels =>
    obtain ⟨levels, hlevels⟩ := Option.isSome_iff_exists.1 hlevels
    have habove := hO.above (hO.builtin rfl) hb hlevels
    rcases above_of_not_declared rfl habove with rfl | ⟨hsuper, rfl⟩
    · exact ⟨(precedes_box p).1, rfl⟩
    · cases p with
      | boolean => cases hsuper
      | _ => exact ⟨.number rfl, rfl⟩
  | narrow | unboxUnchecked | down => cases himplicit

end PlainlyExtended

theorem structuralCast_of_null (hkey : null.key ≠ b.key) (hb : b.isReference) :
    structuralCast null b = some (.ofImplicit null b .nullToReference
      (if b.isObject then Distance.toObject else Distance.nullToReference)) := by
  obtain ⟨herror, hvoid, -⟩ := plain_of_isReference hb
  rw [structuralCast_scalar hkey (.inl rfl), scalarCast, herror, hvoid]
  exact if_pos hb

theorem exists_chain (h : ReflTransGen Extends a b) : ∃ levels, Climbs b.key a levels := by
  induction h using ReflTransGen.head_induction_on with
  | refl => exact ⟨0, .here rfl⟩
  | head hstep _ ih =>
    obtain ⟨levels, hclimbs⟩ := ih
    exact ⟨levels + 1, .step hstep hclimbs⟩

theorem Keyed.hierarchy (hO : Keyed O) : Hierarchy O where
  super := hO.super
  supers_alike ht hu hkey := by rw [hO.eq_of_key ht hu hkey]

namespace PlainlyExtended

variable (hO : PlainlyExtended O) {cast : Cast}

include hO

/-- Types that differ and of which one stands above the other are references. -/
theorem references_of_rises (ha : O a) (hne : a ≠ b) (h : a.Rises b) :
    a.isReference ∧ b.isReference := by
  cases h with
  | above h =>
    rcases (hO.above_cases ha h).2 with hsame | ⟨hreference, hplain⟩
    · exact absurd hsame hne
    · exact ⟨hreference, isReference_of_isPlain hplain⟩
  | null hb => exact ⟨rfl, hb⟩
  | root ha => exact ⟨ha, rfl⟩
  | array => exact ⟨rfl, rfl⟩

/-- A plain type above another one is reached by a cast up. -/
theorem structuralCast_of_above (ha : O a) (hkey : a.key ≠ b.key) (h : ReflTransGen Extends a b) :
    ∃ distance, structuralCast a b = some (.ofImplicit a b .upcast distance) := by
  rcases (hO.above_cases ha h).2 with rfl | ⟨hreference, hplain⟩
  · exact absurd rfl hkey
  have hsupers : a.supers ≠ [] := fun hnil => hkey (by rw [eq_of_above hnil h])
  have hnull : a.isNull = false := by cases a <;> first | rfl | exact absurd rfl hsupers
  have hobject : a.isObject = false := by cases a <;> first | rfl | exact absurd rfl hsupers
  have harray : b.isArray = false := by cases b <;> first | rfl | cases hplain
  have hnumber : b.numericKind? = none := by cases b <;> first | rfl | cases hplain
  obtain ⟨levels, hclimbs⟩ := exists_chain h
  obtain ⟨found, -, hfound⟩ := hO.hierarchy.ancestorDistance_le ha hclimbs
  rw [structuralCast_of_references hreference (isReference_of_isPlain hplain) hnull hkey
    (.inr harray), numericCast_eq_none (.inr hnumber), hobject, referenceCast, hfound]
  split
  · exact ⟨_, rfl⟩
  · exact ⟨_, rfl⟩

/-- What stands above a type is reached by a cast up, or by one of null. -/
theorem exists_structuralCast (ha : O a) (hkey : a.key ≠ b.key) (h : a.Rises b) :
    ∃ cast, structuralCast a b = some cast ∧
      (cast.kind = .upcast ∨ cast.kind = .nullToReference) := by
  induction h with
  | above h =>
    obtain ⟨_, hcast⟩ := hO.structuralCast_of_above ha hkey h
    exact ⟨_, hcast, .inl rfl⟩
  | null hb => exact ⟨_, structuralCast_of_null hkey hb, .inr rfl⟩
  | @root a hreference =>
    cases a with
    | null => exact ⟨_, structuralCast_of_null hkey rfl, .inr rfl⟩
    | _ =>
      exact ⟨_, structuralCast_of_references hreference rfl rfl hkey (.inr rfl), .inl rfl⟩
  | @array a b h ih =>
    have hcomponents : a.key ≠ b.key := mt key_array hkey
    obtain ⟨inner, hinner, hkind⟩ := ih (hO.component ha rfl) hcomponents
    obtain ⟨hreference, hreference'⟩ := hO.references_of_rises (hO.component ha rfl)
      (fun hsame => hcomponents (by rw [hsame])) h
    rw [structuralCast_arrays hcomponents hreference hreference', hinner, Option.bind_some,
      liftToArrays]
    rcases hkind with hkind | hkind <;> rw [hkind] <;> exact ⟨_, rfl, .inl rfl⟩

end PlainlyExtended

end Ty

/-! ## Conversions of the standard registry -/

/-- There is an implicit conversion between the two types. -/
def Registry.Converts (r : Registry) (a b : Ty) : Prop :=
  ∃ cast, r.implicitCast a b = .ok (some cast)

theorem Registry.isSome_distance?_iff {r : Registry} :
    (r.distance? a b).isSome ↔ r.Converts a b := by
  constructor
  · intro h
    unfold distance? at h
    split at h
    case h_1 cast? hcast =>
      cases cast? with
      | none => cases h
      | some cast => exact ⟨cast, hcast⟩
    case h_2 => cases h
  · rintro ⟨cast, hcast⟩
    rw [distance?_eq hcast]
    rfl

instance (r : Registry) (a b : Ty) : Decidable (r.Converts a b) :=
  decidable_of_iff _ Registry.isSome_distance?_iff

namespace Library

theorem mem_builtins_of_isValued (h : t.isValued) : t ∈ Ty.builtins := by
  have hid : t.id? = some (.builtin t.key) := by
    cases t <;> first | rfl | cases h
  exact Ty.mem_builtins hid

theorem converts_numbers : ∀ a ∈ Ty.builtins, ∀ b ∈ Ty.builtins, ∀ kind ∈ a.heldKind?,
    ∀ wider ∈ b.heldKind?, kind.UpTo wider → a.isApart b = false → registry.Converts a b := by
  decide +kernel

theorem converts_number : ∀ a ∈ Ty.builtins, a.heldKind?.isSome → a.isApart .number = false →
    registry.Converts a .number := by
  decide +kernel

theorem converts_booleans : ∀ a ∈ Ty.builtins, ∀ b ∈ Ty.builtins, a.isBooleanLike →
    b.isBooleanLike → registry.Converts a b := by
  decide +kernel

theorem converts_root (p : Primitive) : registry.Converts (.primitive p) .object := by
  cases p <;> decide +kernel

end Library

/-- The standard registry converts along the preorder, except between types that are apart. -/
theorem Ty.PlainlyExtended.converts_iff (hO : PlainlyExtended O) (ha : O a) (hb : O b) :
    Library.registry.Converts a b ↔ a.Precedes b ∧ a.isApart b = false := by
  constructor
  · rintro ⟨cast, h⟩
    by_cases hkey : a.key = b.key
    · obtain rfl := hO.eq_of_key ha hb hkey
      exact ⟨.rises (.above .refl), a.isApart_self⟩
    -- Casts follow from the types, or are conversions of the library between wrappers and numbers.
    rcases hO.implicitCast_found ha hb hkey h with ⟨hcast, himplicit⟩ | hwraps
    · exact hO.precedes_of_structuralCast ha hb hcast himplicit
    · exact precedes_of_wraps hwraps
  · rintro ⟨h, hapart⟩
    cases h with
    | rises h =>
      by_cases hkey : a.key = b.key
      · exact ⟨_, if_pos hkey⟩
      obtain ⟨cast, hcast, hkind⟩ := hO.exists_structuralCast ha hkey h
      refine ⟨cast, Library.registry_implicitCast_of_structural hkey hcast ?_⟩
      rw [(structuralCast_marked hcast).implicit_eq]
      rcases hkind with hkind | hkind <;> rw [hkind] <;> rfl
    | null => cases hapart
    | root p => exact Library.converts_root p
    | numbers hkind hwider hup =>
      exact Library.converts_numbers _
        (Library.mem_builtins_of_isValued (isValued_of_heldKind? hkind)) _
        (Library.mem_builtins_of_isValued (isValued_of_heldKind? hwider)) _ hkind _ hwider hup
        hapart
    | number hkind =>
      exact Library.converts_number _
        (Library.mem_builtins_of_isValued (isValued_of_heldKind? hkind)) (by rw [hkind]; rfl) hapart
    | booleans hboolean hboolean' =>
      exact Library.converts_booleans _
        (Library.mem_builtins_of_isValued (isValued_of_isBooleanLike hboolean)) _
        (Library.mem_builtins_of_isValued (isValued_of_isBooleanLike hboolean')) hboolean hboolean'

end RuleExpr

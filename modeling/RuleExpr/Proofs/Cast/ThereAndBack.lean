import RuleExpr.Proofs.Cast.Separation
import RuleExpr.Proofs.Soundness.Targets

/-!
# Conversions There and Back

Two types may convert to each other: a primitive type and its box, a wrapper and the numbers that it
wraps, null and a type declared above the type of null.  The costs tell the two ways apart, so of
two such conversions one is always the nearer.  What is needed is that a key stands for one type;
otherwise two classes could each be declared above the other.
-/

namespace RuleExpr

open Relation (ReflTransGen)

/-- Closed sets of types in which a key stands for one type. -/
structure Ty.Keyed (O : Ty → Prop) : Prop extends Ty.Closed O where
  eq_of_key : ∀ {t u : Ty}, O t → O u → t.key = u.key → t = u

variable {O : Ty → Prop} {a b t u : Ty} {c : Cast}

/-- Conversions that follow from the structure of two types and need not be written, with their
cost. -/
inductive Ty.Reaches : Ty → Ty → Nat → Prop
  | null {b : Ty} (hb : b.isReference) :
      Reaches .null b (if b.isObject then Distance.toObject else Distance.nullToReference)
  | object {a : Ty} (cost : Nat) : Reaches a .object cost
  | box (p : Primitive) : Reaches (.primitive p) (.boxed p) Distance.boxing
  | unbox (p : Primitive) : Reaches (.boxed p) (.primitive p) Distance.unboxing
  | widen {a b : Ty} {given wanted : NumericKind} (cost : Nat) (ha : a.numericKind? = some given)
      (hb : b.numericKind? = some wanted) (hwidens : given.widensTo wanted) : Reaches a b cost
  | boxAncestor {p : Primitive} {b : Ty} {levels : Nat}
      (h : (Ty.boxed p).ancestorDistance b = some levels) :
      Reaches (.primitive p) b (Distance.boxing + levels * Distance.upcastStep)
  | up {a b : Ty} {levels : Nat} (h : a.ancestorDistance b = some levels) :
      Reaches a b (levels * Distance.upcastStep)
  | array {a b : Ty} {cost : Nat} (h : Reaches a b cost) : Reaches (.array a) (.array b) cost

/-- Arrays have the keys of their components, one dimension up. -/
theorem Ty.key_array (h : a.key = b.key) : (Ty.array a).key = (Ty.array b).key := by
  obtain ⟨helement, hdimensions⟩ := TypeKey.mk.inj h
  rw [key, key, elementName, elementName, dimensions, dimensions, helement, hdimensions]

/-- A cast that need not be written.  The casts that are lifted to arrays are among these. -/
def Cast.Unwritten (c : Cast) : Prop :=
  c.implicit = true ∨ c.kind = .upcast ∨ c.kind = .nullToReference

theorem Cast.not_unwritten_downcast (a b : Ty) (extra : Nat) :
    ¬(ofExplicit a b .downcast extra).Unwritten := by
  simp [Unwritten, ofExplicit]

theorem Cast.not_unwritten_narrowing (a b : Ty) (kind : NumericKind) (extra : Nat) :
    ¬(ofExplicit a b (.narrowing kind) extra).Unwritten := by
  simp [Unwritten, ofExplicit]

theorem scalarCast_reaches (h : scalarCast a b = some c) (hunwritten : c.Unwritten) :
    a.Reaches b c.distance := by
  cases scalarCast_cases h with
  | null hb => exact .null hb
  | boxObject | object => exact .object _
  | box p => exact .box p
  | unbox p => exact .unbox p
  | widen ha hb hwidens => exact .widen _ ha hb hwidens
  | boxAncestor hlevels => exact .boxAncestor hlevels
  | up _ hlevels => exact .up hlevels
  | narrow | unboxUnchecked => exact absurd hunwritten (Cast.not_unwritten_narrowing _ _ _ _)
  | fromRoot | down => exact absurd hunwritten (Cast.not_unwritten_downcast _ _ _)

theorem structuralCast_reaches (hkey : a.key ≠ b.key) (h : structuralCast a b = some c)
    (hunwritten : c.Unwritten) : a.Reaches b c.distance := by
  fun_induction structuralCast a b generalizing c with
  | case1 a b hsame => exact absurd hsame hkey
  | case2 => cases h
  | case3 a b _ hdifferent ih =>
    obtain ⟨inner, hinner, hlift⟩ := Option.bind_eq_some_iff.1 h
    have hcomponents : a.key ≠ b.key := mt Ty.key_array hdifferent
    rcases liftToArrays_cases hlift with ⟨hkind, rfl⟩ | ⟨-, rfl⟩
    · have hreaches := ih hcomponents hinner (.inr hkind)
      exact .array hreaches
    · exact absurd hunwritten (Cast.not_unwritten_downcast _ _ _)
  | case4 => exact scalarCast_reaches h hunwritten

theorem Ty.weight_of_above (h : ReflTransGen Ty.Extends a b) : a = b ∨ b.weight < a.weight := by
  induction h with
  | refl => exact .inl rfl
  | tail _ hstep ih =>
    have hlt := weight_lt_of_mem_supers hstep
    rcases ih with rfl | ih
    · exact .inr hlt
    · exact .inr (Nat.lt_trans hlt ih)

/-- Above a type that is not declared there is the class of numbers, if anything. -/
theorem Ty.above_of_not_declared (ha : a.isDeclared = false) (h : ReflTransGen Ty.Extends a b) :
    a = b ∨ Ty.number ∈ a.supers ∧ b = .number := by
  induction h with
  | refl => exact .inl rfl
  | tail _ hstep ih =>
    rcases ih with rfl | ⟨-, rfl⟩
    · rcases isDeclared_or_number_of_super hstep with hdeclared | rfl
      · rw [ha] at hdeclared
        cases hdeclared
      · exact .inr ⟨hstep, rfl⟩
    · cases hstep

/-- A type without super-types has no ancestors but itself. -/
theorem Ty.key_eq_of_no_supers (hsupers : a.supers = []) {levels : Nat}
    (h : a.ancestorDistance b = some levels) : a.key = b.key := by
  rw [ancestorDistance, nextLevel, hsupers, List.map_nil, levelOf] at h
  split at h
  case isTrue hkey => exact hkey
  case isFalse => cases h

theorem NumericKind.not_widensTo_self (kind : NumericKind) : kind.widensTo kind = false := by
  cases kind <;> rfl

theorem NumericKind.widensTo_asymm {kind other : NumericKind} (h : kind.widensTo other = true) :
    other.widensTo kind = false := by
  revert h
  cases kind <;> cases other <;> decide

theorem Ty.not_isDeclared_of_numericKind? {kind : NumericKind} (h : a.numericKind? = some kind) :
    a.isDeclared = false := by
  cases a <;> first | rfl | cases h

namespace Ty.Keyed

variable (hO : Keyed O)

include hO

theorem above (ha : O a) (hb : O b) {levels : Nat} (h : a.ancestorDistance b = some levels) :
    ReflTransGen Extends a b := by
  obtain ⟨u, habove, hkey⟩ := exists_of_ancestorDistance (by rw [h]; rfl)
  have hu : O u := by
    clear hkey h hb
    induction habove with
    | refl => exact ha
    | tail _ hstep ih => exact hO.super ih hstep
  rwa [hO.eq_of_key hu hb hkey] at habove

/-- A type that is not declared has the class of numbers as its ancestor, if any. -/
theorem ancestor_of_not_declared (ha : O a) (hb : O b) (hdeclared : a.isDeclared = false)
    {levels : Nat} (h : a.ancestorDistance b = some levels) :
    a = b ∨ Ty.number ∈ a.supers ∧ b = .number :=
  above_of_not_declared hdeclared (hO.above ha hb h)

/-- An ancestor of the box of a primitive type is the box itself or the class of numbers. -/
theorem ancestor_of_boxed {p : Primitive} (hb : O b) {levels : Nat}
    (h : (Ty.boxed p).ancestorDistance b = some levels) :
    b = .boxed p ∧ levels = 0 ∨ b = .number := by
  rcases hO.ancestor_of_not_declared (hO.builtin rfl) hb rfl h with rfl | ⟨-, rfl⟩
  · rw [ancestorDistance, if_pos rfl] at h
    exact .inl ⟨rfl, (Option.some.inj h).symm⟩
  · exact .inr rfl

omit hO in
theorem not_reaches_of_object (hkey : a.key ≠ Ty.object.key) {cost : Nat} :
    ¬Ty.object.Reaches a cost := by
  intro h
  cases h with
  | object => exact hkey rfl
  | widen _ hobject => cases hobject
  | up hlevels => exact hkey (key_eq_of_no_supers rfl hlevels).symm

omit hO in
theorem cost_of_reaches_null (hb : b.isReference) (hkey : b.key ≠ Ty.null.key) {cost : Nat}
    (h : b.Reaches .null cost) :
    cost ≠ if b.isObject then Distance.toObject else Distance.nullToReference := by
  cases h with
  | null => exact absurd rfl hkey
  | widen _ _ hnull => cases hnull
  | boxAncestor => cases hb
  | @up _ _ levels hlevels =>
    split
    case isTrue hobject =>
      cases b with
      | object => exact absurd (key_eq_of_no_supers rfl hlevels) hkey
      | _ => cases hobject
    case isFalse =>
      simp only [Distance.upcastStep, Distance.nullToReference]
      omega

theorem cost_of_unbox {p : Primitive} {cost : Nat} (h : (Ty.boxed p).Reaches (.primitive p) cost) :
    cost = Distance.unboxing := by
  cases h with
  | unbox => rfl
  | @widen _ _ given wanted _ hgiven hwanted hwidens =>
    obtain rfl : given = wanted := Option.some.inj (hgiven.symm.trans hwanted)
    rw [NumericKind.not_widensTo_self] at hwidens
    cases hwidens
  | up hlevels =>
    rcases hO.ancestor_of_boxed (hO.builtin rfl) hlevels with ⟨hbox, -⟩ | hnumber
    · cases hbox
    · cases hnumber

theorem cost_of_box {p : Primitive} {cost : Nat} (h : (Ty.primitive p).Reaches (.boxed p) cost) :
    cost = Distance.boxing := by
  cases h with
  | box => rfl
  | @widen _ _ given wanted _ hgiven hwanted hwidens =>
    obtain rfl : given = wanted := Option.some.inj (hgiven.symm.trans hwanted)
    rw [NumericKind.not_widensTo_self] at hwidens
    cases hwidens
  | boxAncestor hlevels =>
    rcases hO.ancestor_of_boxed (hO.builtin rfl) hlevels with ⟨-, rfl⟩ | hnumber
    · rfl
    · cases hnumber
  | up hlevels =>
    cases hO.eq_of_key (hO.builtin rfl) (hO.builtin rfl) (key_eq_of_no_supers rfl hlevels)

theorem not_reaches_of_widens (ha : O a) (hb : O b) (hkey : a.key ≠ b.key)
    {given wanted : NumericKind} (hgiven : a.numericKind? = some given)
    (hwanted : b.numericKind? = some wanted) (hwidens : given.widensTo wanted) {cost : Nat} :
    ¬b.Reaches a cost := by
  intro h
  -- The kinds differ, so it is not the box of the other type.
  have hkinds : given ≠ wanted := by
    rintro rfl
    rw [NumericKind.not_widensTo_self] at hwidens
    cases hwidens
  cases h with
  | null => cases hwanted
  | object => cases hgiven
  | box | unbox => exact hkinds (Option.some.inj (hgiven.symm.trans hwanted))
  | widen _ hb' ha' hback =>
    obtain rfl := Option.some.inj (hgiven.symm.trans ha')
    obtain rfl := Option.some.inj (hwanted.symm.trans hb')
    rw [NumericKind.widensTo_asymm hwidens] at hback
    cases hback
  | boxAncestor hlevels =>
    rcases hO.ancestor_of_boxed ha hlevels with ⟨rfl, -⟩ | rfl
    · exact hkinds (Option.some.inj (hgiven.symm.trans hwanted))
    · cases hgiven
  | up hlevels =>
    have hdeclared := not_isDeclared_of_numericKind? hwanted
    rcases hO.ancestor_of_not_declared hb ha hdeclared hlevels with rfl | ⟨-, rfl⟩
    · exact hkey rfl
    · cases hgiven
  | array => cases hgiven

theorem not_number_reaches_primitive {p : Primitive} {cost : Nat} :
    ¬Ty.number.Reaches (.primitive p) cost := by
  intro h
  cases h with
  | widen _ hnumber => cases hnumber
  | up hlevels =>
    cases hO.eq_of_key (hO.builtin rfl) (hO.builtin rfl) (key_eq_of_no_supers rfl hlevels)

/-- Conversions there and back never cost the same. -/
theorem reaches_ne {cost cost' : Nat} (ha : O a) (hb : O b) (hkey : a.key ≠ b.key)
    (h : a.Reaches b cost) (h' : b.Reaches a cost') : cost ≠ cost' := by
  induction h generalizing cost' with
  | null hreference => exact (cost_of_reaches_null hreference hkey.symm h').symm
  | object => exact absurd h' (not_reaches_of_object hkey)
  | box p =>
    rw [hO.cost_of_unbox h']
    decide
  | unbox p =>
    rw [hO.cost_of_box h']
    decide
  | widen _ hgiven hwanted hwidens =>
    exact absurd h' (hO.not_reaches_of_widens ha hb hkey hgiven hwanted hwidens)
  | boxAncestor hlevels =>
    rcases hO.ancestor_of_boxed hb hlevels with ⟨rfl, rfl⟩ | rfl
    · rw [hO.cost_of_unbox h']
      decide
    · exact absurd h' hO.not_number_reaches_primitive
  | up hlevels =>
    cases h' with
    | null hreference => exact cost_of_reaches_null hreference hkey (.up hlevels)
    | object => exact absurd (.up hlevels) (not_reaches_of_object hkey.symm)
    | box p =>
      rw [hO.cost_of_unbox (.up hlevels)]
      decide
    | unbox p =>
      rw [hO.cost_of_box (.up hlevels)]
      decide
    | widen _ hgiven hwanted hwidens =>
      exact absurd (.up hlevels) (hO.not_reaches_of_widens hb ha hkey.symm hgiven hwanted hwidens)
    | boxAncestor hback =>
      rcases hO.ancestor_of_boxed ha hback with ⟨rfl, rfl⟩ | rfl
      · rw [hO.cost_of_unbox (.up hlevels)]
        decide
      · exact absurd (.up hlevels) hO.not_number_reaches_primitive
    | up hback =>
      -- Weights fall along inheritance, so it has no cycles.
      rcases weight_of_above (hO.above ha hb hlevels) with rfl | hlt
      · exact absurd rfl hkey
      · rcases weight_of_above (hO.above hb ha hback) with rfl | hlt'
        · exact absurd rfl hkey
        · exact absurd hlt (Nat.lt_asymm hlt')
    | array => exact absurd (key_eq_of_no_supers rfl hlevels) hkey
  | array h ih =>
    cases h' with
    | widen _ harray => cases harray
    | up hlevels => exact absurd (key_eq_of_no_supers rfl hlevels).symm hkey
    | array h' => exact ih (hO.component ha rfl) (hO.component hb rfl) (mt key_array hkey) h'

end Ty.Keyed

/-- Conversions of the library that need not be written, with their cost. -/
inductive Library.Wraps : Ty → Ty → Nat → Prop
  | wrap {a : Ty} (wrapper : MetaKind) (kind : NumericKind) (ha : a = .ofNumericKind kind)
      (h : kind = wrapper.numeric ∨ kind.widensTo wrapper.numeric) :
      Wraps a (.wrapper wrapper)
        (Distance.wrap + kind.stepsTo wrapper.numeric * Distance.wideningStep)
  | unwrap {b : Ty} (wrapper : MetaKind) (kind : NumericKind) (hb : b = .ofNumericKind kind)
      (h : kind = wrapper.numeric ∨ wrapper.numeric.widensTo kind) :
      Wraps (.wrapper wrapper) b
        (Distance.unwrap + wrapper.numeric.stepsTo kind * Distance.wideningStep)
  | rewrap (wrapper wider : MetaKind) (h : wrapper.numeric.widensTo wider.numeric) :
      Wraps (.wrapper wrapper) (.wrapper wider)
        (Distance.wrap + wrapper.numeric.stepsTo wider.numeric * Distance.wideningStep)

namespace Library

theorem conversion_implicitName {source target : Ty} {kind : NumericKind} {distance : Nat}
    {entry : Conversion}
    (h : conversion CastLibrary.implicitName source target kind distance = some entry) :
    entry.source = source ∧ entry.method.returns = target ∧ entry.distance = distance := by
  cases h
  exact ⟨rfl, rfl, rfl⟩

theorem conversion_explicitName {source target : Ty} {kind : NumericKind} {distance : Nat}
    {entry : Conversion}
    (h : conversion CastLibrary.explicitName source target kind distance = some entry) :
    entry.implicit = false := by
  cases h
  rfl

theorem casts_wraps {entry : Conversion} (h : entry ∈ casts.entries)
    (himplicit : entry.implicit = true) :
    Wraps entry.source entry.method.returns entry.distance := by
  obtain ⟨wrapper, -, h⟩ := List.mem_flatMap.1 h
  rcases List.mem_append.1 h with h | h
  · obtain ⟨kind, -, h⟩ := List.mem_flatMap.1 h
    rcases List.mem_append.1 h with h | h
    · have hwrapping := Option.mem_toList.1 h
      unfold wrapping at hwrapping
      split at hwrapping
      case isTrue hkind =>
        obtain ⟨hsource, htarget, hdistance⟩ := conversion_implicitName hwrapping
        rw [hsource, htarget, hdistance]
        exact .wrap wrapper kind rfl hkind
      case isFalse => cases hwrapping
    · have hunwrapping := Option.mem_toList.1 h
      unfold unwrapping at hunwrapping
      split at hunwrapping
      case isTrue hkind =>
        obtain ⟨hsource, htarget, hdistance⟩ := conversion_implicitName hunwrapping
        rw [hsource, htarget, hdistance]
        exact .unwrap wrapper kind rfl hkind
      case isFalse =>
        rw [conversion_explicitName hunwrapping] at himplicit
        cases himplicit
  · obtain ⟨wider, -, h⟩ := List.mem_flatMap.1 h
    have hrewrapping := Option.mem_toList.1 h
    unfold rewrapping at hrewrapping
    split at hrewrapping
    case isTrue hkind =>
      obtain ⟨hsource, htarget, hdistance⟩ := conversion_implicitName hrewrapping
      rw [hsource, htarget, hdistance]
      exact .rewrap wrapper wider hkind
    case isFalse => cases hrewrapping

theorem not_wrapper_ofNumericKind {kind : NumericKind} {wrapper : MetaKind} :
    Ty.ofNumericKind kind ≠ .wrapper wrapper := by
  cases kind <;> nofun

theorem numericKind?_ofNumericKind (kind : NumericKind) :
    (Ty.ofNumericKind kind).numericKind? = some kind := by
  cases kind <;> rfl

/-- A number is wrapped and unwrapped only at the kind of its wrapper, and unwrapping costs more. -/
theorem wrap_ne_unwrap {wrapper : MetaKind} {kind : NumericKind}
    (h : kind = wrapper.numeric ∨ kind.widensTo wrapper.numeric)
    (h' : kind = wrapper.numeric ∨ wrapper.numeric.widensTo kind) :
    Distance.wrap + kind.stepsTo wrapper.numeric * Distance.wideningStep ≠
      Distance.unwrap + wrapper.numeric.stepsTo kind * Distance.wideningStep := by
  have hkind : kind = wrapper.numeric := by
    rcases h with h | h
    · exact h
    · rcases h' with h' | h'
      · exact h'
      · rw [NumericKind.widensTo_asymm h] at h'
        cases h'
  rw [← hkind]
  cases kind <;> decide

/-- Conversions of the library there and back never cost the same. -/
theorem wraps_ne {cost cost' : Nat} (h : Wraps a b cost) (h' : Wraps b a cost') :
    cost ≠ cost' := by
  cases h with
  | wrap wrapper kind ha hkind =>
    cases h' with
    | wrap => exact absurd ha.symm not_wrapper_ofNumericKind
    | unwrap _ kind' ha' hkind' =>
      -- There and back are a wrapping and an unwrapping at one kind, with different prices.
      have hsame := congrArg Ty.numericKind? (ha.symm.trans ha')
      rw [numericKind?_ofNumericKind, numericKind?_ofNumericKind] at hsame
      cases hsame
      exact wrap_ne_unwrap hkind hkind'
    | rewrap => exact absurd ha.symm not_wrapper_ofNumericKind
  | unwrap wrapper kind hb hkind =>
    cases h' with
    | wrap _ kind' hb' hkind' =>
      have hsame := congrArg Ty.numericKind? (hb.symm.trans hb')
      rw [numericKind?_ofNumericKind, numericKind?_ofNumericKind] at hsame
      cases hsame
      exact (wrap_ne_unwrap hkind' hkind).symm
    | unwrap => exact absurd hb.symm not_wrapper_ofNumericKind
    | rewrap => exact absurd hb.symm not_wrapper_ofNumericKind
  | rewrap wrapper wider hwider =>
    cases h' with
    | wrap _ _ hb => exact absurd hb.symm not_wrapper_ofNumericKind
    | unwrap _ _ hb => exact absurd hb.symm not_wrapper_ofNumericKind
    | rewrap _ _ hback =>
      rw [NumericKind.widensTo_asymm hwider] at hback
      cases hback

end Library

theorem Ty.key_of_wrapper_reaches {wrapper : MetaKind} {cost : Nat}
    (h : (Ty.wrapper wrapper).Reaches b cost) : b = .object ∨ (Ty.wrapper wrapper).key = b.key := by
  cases h with
  | object => exact .inl rfl
  | widen _ hwrapper => cases hwrapper
  | up hlevels => exact .inr (key_eq_of_no_supers rfl hlevels)

namespace Ty.Keyed

variable (hO : Keyed O)

include hO

theorem not_reaches_wrapper {wrapper : MetaKind} {kind : NumericKind} {cost : Nat} (ha : O a)
    (hkind : a.numericKind? = some kind) : ¬a.Reaches (.wrapper wrapper) cost := by
  intro h
  cases h with
  | null => cases hkind
  | widen _ _ hwrapper => cases hwrapper
  | boxAncestor hlevels =>
    rcases hO.ancestor_of_boxed (hO.builtin rfl) hlevels with ⟨hbox, -⟩ | hnumber
    · cases hbox
    · cases hnumber
  | up hlevels =>
    have hdeclared := not_isDeclared_of_numericKind? hkind
    rcases hO.ancestor_of_not_declared ha (hO.builtin rfl) hdeclared hlevels with rfl | ⟨-, hnumber⟩
    · cases hkind
    · cases hnumber

theorem mem_of_wraps {cost : Nat} (h : Library.Wraps a b cost) : O a ∧ O b := by
  cases h with
  | wrap _ kind ha => exact ⟨ha ▸ hO.ofNumericKind kind, hO.builtin rfl⟩
  | unwrap _ kind hb => exact ⟨hO.builtin rfl, hb ▸ hO.ofNumericKind kind⟩
  | rewrap => exact ⟨hO.builtin rfl, hO.builtin rfl⟩

/-- What the library converts does not convert back by structure. -/
theorem not_reaches_of_wraps {cost cost' : Nat} (hb : O b) (hkey : a.key ≠ b.key)
    (h : Library.Wraps a b cost) : ¬b.Reaches a cost' := by
  intro h'
  cases h with
  | wrap _ kind ha =>
    rcases key_of_wrapper_reaches h' with rfl | hsame
    · cases kind <;> cases ha
    · exact hkey hsame.symm
  | unwrap _ kind hkind =>
    subst hkind
    exact hO.not_reaches_wrapper hb (Library.numericKind?_ofNumericKind kind) h'
  | rewrap =>
    rcases key_of_wrapper_reaches h' with hobject | hsame
    · cases hobject
    · exact hkey hsame.symm

/-- An implicit conversion of the library is between the types that it was registered for. -/
theorem wraps_of_casts (ha : O a) (hb : O b) (h : Library.casts.cast a b = .ok (some c))
    (himplicit : c.implicit = true) : Library.Wraps a b c.distance := by
  obtain ⟨entry, ⟨hentry, rfl⟩ | ⟨-, -, -, rfl⟩⟩ := CastLibrary.cast_cases h
  · obtain ⟨hentries, hsource, htarget⟩ := CastLibrary.matching_spec hentry
    have hfound := List.find?_some hentry
    simp only [Bool.and_eq_true, beq_iff_eq] at hfound
    have hwraps := Library.casts_wraps hentries hfound.1.1
    obtain ⟨hentryA, hentryB⟩ := hO.mem_of_wraps hwraps
    rwa [hO.eq_of_key hentryA ha hsource, hO.eq_of_key hentryB hb htarget] at hwraps
  · cases himplicit

/-- Where the standard registry finds an implicit conversion between types of different keys. -/
theorem implicitCast_found (ha : O a) (hb : O b) (hkey : a.key ≠ b.key)
    (h : Library.registry.implicitCast a b = .ok (some c)) :
    structuralCast a b = some c ∧ c.implicit = true ∨ Library.Wraps a b c.distance := by
  obtain ⟨hcast, himplicit⟩ := Registry.cast_of_implicitCast hkey h
  obtain ⟨provider, hmem, hprovider⟩ := Registry.firstCast_provider hcast
  rcases List.mem_cons.1 hmem with rfl | hmem
  · exact .inl ⟨Except.ok.inj hprovider, himplicit⟩
  · rw [List.mem_singleton.1 hmem] at hprovider
    exact .inr (hO.wraps_of_casts ha hb hprovider himplicit)

/-- How the standard registry converts implicitly between types of different keys. -/
theorem implicitCast_cases (ha : O a) (hb : O b) (hkey : a.key ≠ b.key)
    (h : Library.registry.implicitCast a b = .ok (some c)) :
    a.Reaches b c.distance ∨ Library.Wraps a b c.distance := by
  rcases hO.implicitCast_found ha hb hkey h with ⟨hcast, himplicit⟩ | hwraps
  · exact .inl (structuralCast_reaches hkey hcast (.inl himplicit))
  · exact .inr hwraps

/-- Implicit conversions there and back never cost the same. -/
theorem implicitCast_ne {c' : Cast} (ha : O a) (hb : O b) (hkey : a.key ≠ b.key)
    (h : Library.registry.implicitCast a b = .ok (some c))
    (h' : Library.registry.implicitCast b a = .ok (some c')) : c.distance ≠ c'.distance := by
  rcases hO.implicitCast_cases ha hb hkey h with hthere | hthere
  · rcases hO.implicitCast_cases hb ha hkey.symm h' with hback | hback
    · exact hO.reaches_ne ha hb hkey hthere hback
    · exact absurd hthere (hO.not_reaches_of_wraps ha hkey.symm hback)
  · rcases hO.implicitCast_cases hb ha hkey.symm h' with hback | hback
    · exact absurd hback (hO.not_reaches_of_wraps hb hkey hthere)
    · exact Library.wraps_ne hthere hback

end Ty.Keyed

end RuleExpr

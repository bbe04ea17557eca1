import RuleExpr.Proofs.AncestorLevels
import RuleExpr.Proofs.Cast.Written

/-!
# The Order of Upcasts

Upcasts come from three places: every reference has one to the root of all references, a type has
one to each of its ancestors, and arrays have those of their components.  `Ty.Below` collects the
three with their distances.  Among types whose levels add up it is a strict order in which a way in
two steps is never shorter than the direct one, and the structural casts are upcasts along it and
downcasts against it.

Null stays out, because it is below everything by a conversion of its own that arrays turn into an
upcast.  Super-types are taken not to be arrays: an array below a declared type would also have the
ancestors of its components above it, which the walk upwards does not see.
-/

namespace RuleExpr

namespace Ty

/-- The type that is left when all dimensions are taken off. -/
def innermost : Ty → Ty
  | array component => component.innermost
  | t => t

/-- A hierarchy with the components of its arrays, in which no array is declared to be a
super-type. -/
structure ArrayHierarchy (O : Ty → Prop) : Prop extends Hierarchy O where
  component : ∀ {t : Ty}, O (.array t) → O t
  not_array : ∀ {t u : Ty}, O t → u ∈ t.supers → u.isArray = false

/-- What stands below what, and at which distance. -/
inductive Below : Ty → Ty → Nat → Prop
  | root {a : Ty} (ha : a.isReference) (hkey : a.key ≠ Ty.object.key) :
      Below a .object Distance.toObject
  | ancestor {a b : Ty} {levels : Nat} (ha : a.isReference) (hb : b.isReference)
      (hobject : b.isObject = false) (hkey : a.key ≠ b.key)
      (hlevels : a.ancestorDistance b = some levels) :
      Below a b (levels * Distance.upcastStep)
  | array {a b : Ty} {distance : Nat} (h : Below a b distance) :
      Below (.array a) (.array b) distance

variable {O : Ty → Prop} {a b c t u : Ty} {m n distance : Nat}

theorem key_array_inj (h : (Ty.array a).key = (Ty.array b).key) : a.key = b.key := by
  obtain ⟨helement, hdimensions⟩ := TypeKey.mk.inj h
  rw [key, key, show a.elementName = b.elementName from helement, Nat.succ.inj hdimensions]

theorem isArray_of_key (h : a.key = (Ty.array b).key) : a.isArray = true := by
  have hdimensions : a.dimensions = b.dimensions + 1 := congrArg TypeKey.dimensions h
  cases a with
  | array => rfl
  | _ => cases hdimensions

theorem key_array_ne_object : (Ty.array a).key ≠ Ty.object.key := by
  intro hkey
  cases isArray_of_key hkey.symm

namespace Below

theorem key_ne (h : Below a b distance) : a.key ≠ b.key := by
  induction h with
  | root _ hkey => exact hkey
  | ancestor _ _ _ hkey => exact hkey
  | array _ ih => exact fun hsame => ih (key_array_inj hsame)

theorem reference (h : Below a b distance) : a.isReference = true ∧ b.isReference = true := by
  cases h with
  | root ha => exact ⟨ha, rfl⟩
  | ancestor ha hb => exact ⟨ha, hb⟩
  | array => exact ⟨rfl, rfl⟩

end Below

namespace ArrayHierarchy

variable (hO : ArrayHierarchy O)

include hO

/-- Arrays have nothing above them and nothing below them by levels. -/
theorem not_array_of_levels (ha : O a) (hkey : a.key ≠ b.key)
    (h : a.ancestorDistance b = some m) : a.isArray = false ∧ b.isArray = false := by
  constructor
  · cases a with
    | array => exact absurd (key_eq_of_no_supers rfl h) hkey
    | _ => rfl
  · cases b with
    | array =>
      obtain ⟨v, u, hv, hu, hsame⟩ := hO.exists_last ha (climbs_of_ancestorDistance h) hkey
      rw [← hO.not_array hv hu, isArray_of_key hsame]
      rfl
    | _ => rfl

/-- A type with the key of the root has nothing above it, since the root has not. -/
theorem key_ne_object_of_levels (ha : O a) (hobject : O .object) (hkey : a.key ≠ b.key)
    (h : a.ancestorDistance b = some m) : a.key ≠ Ty.object.key := by
  intro hroot
  cases hO.climbs_congr ha hobject hroot (climbs_of_ancestorDistance h) with
  | here hsame => exact hkey (hroot.trans hsame)
  | step hsuper => cases hsuper

theorem below_trans (ha : O a) (hb : O b) (hc : O c) (h : Below a b m) (h' : Below b c n) :
    ∃ direct ≤ m + n, Below a c direct := by
  induction h generalizing c n with
  | root =>
    cases h' with
    | root _ hkey => exact absurd rfl hkey
    | ancestor _ _ _ hkey hlevels => exact absurd (key_eq_of_no_supers rfl hlevels) hkey
  | @ancestor a b levels hreference _ _ hkey hlevels =>
    cases h' with
    | root =>
      exact ⟨_, Nat.le_add_left _ _,
        .root hreference (hO.key_ne_object_of_levels ha hc hkey hlevels)⟩
    | @ancestor _ _ further _ hreference' hobject' _ hfurther =>
      obtain ⟨direct, hle, hdirect⟩ := hO.ancestorDistance_trans ha hb hlevels hfurther
      -- Types above and below each other would close a cycle of inheritance.
      have hdifferent : a.key ≠ c.key := by
        intro hsame
        rw [ancestorDistance, ← hsame, ← ancestorDistance] at hfurther
        exact hkey (hO.ancestorDistance_antisymm ha hb hlevels hfurther)
      refine ⟨direct * Distance.upcastStep, ?_, .ancestor hreference hreference' hobject' hdifferent
        hdirect⟩
      rw [← Nat.add_mul]
      exact Nat.mul_le_mul_right _ hle
    | array => cases (hO.not_array_of_levels ha hkey hlevels).2
  | array h ih =>
    cases h' with
    | root => exact ⟨_, Nat.le_add_left _ _, .root rfl key_array_ne_object⟩
    | ancestor _ _ _ hkey hlevels => exact absurd (key_eq_of_no_supers rfl hlevels) hkey
    | array h' =>
      obtain ⟨direct, hle, hdirect⟩ :=
        ih (hO.component ha) (hO.component hb) (hO.component hc) h'
      exact ⟨direct, hle, .array hdirect⟩

theorem below_asymm (ha : O a) (hb : O b) (h : Below a b m) : ¬Below b a n := by
  intro h'
  obtain ⟨direct, -, hround⟩ := hO.below_trans ha hb ha h h'
  exact hround.key_ne rfl

end ArrayHierarchy

end Ty

section References

variable {a b : Ty} {c : Cast} {levels distance : Nat}

/-- References are no errors, have values, and are not primitive. -/
theorem Ty.plain_of_isReference (h : a.isReference) :
    a.isError = false ∧ a.isVoid = false ∧ a.primitive? = none := by
  cases a <;> first | exact ⟨rfl, rfl, rfl⟩ | cases h

theorem structuralCast_arrays (hkey : a.key ≠ b.key) (ha : a.isReference) (hb : b.isReference) :
    structuralCast (.array a) (.array b) =
      (structuralCast a b).bind (liftToArrays (.array a) (.array b)) := by
  have hnot : ¬(a.isPrimitive || b.isPrimitive) = true := by
    simp [Ty.isPrimitive, (Ty.plain_of_isReference ha).2.2, (Ty.plain_of_isReference hb).2.2]
  rw [structuralCast, if_neg fun h => hkey (Ty.key_array_inj h), if_neg hnot]

theorem boxingCast_of_references (ha : a.isReference) (hb : b.isReference) :
    boxingCast a b = none := by
  unfold boxingCast
  split
  · cases ha
  · cases hb
  · rfl

theorem numericCast_kind (ha : a.isReference) (hb : b.isReference) (h : numericCast a b = some c) :
    c.kind ≠ .upcast ∧ c.kind ≠ .downcast := by
  obtain ⟨given, -, h⟩ := Option.bind_eq_some_iff.1 h
  obtain ⟨wanted, -, h⟩ := Option.bind_eq_some_iff.1 h
  rw [boxingCast_of_references ha hb] at h
  split at h
  · cases h
  · split at h <;> cases h <;> simp [Cast.ofImplicit, Cast.ofExplicit]

theorem Ty.numericKind?_of_key (h : b.key = Ty.number.key) : b.numericKind? = none := by
  cases b with
  | primitive p => exact absurd h (by cases p <;> decide)
  | boxed p => exact absurd h (by cases p <;> decide)
  | bigInteger | bigDecimal => exact absurd h (by decide)
  | _ => rfl

/-- An ancestor of a numeric type is not numeric itself. -/
theorem Ty.numericKind?_of_levels (hkey : a.key ≠ b.key)
    (h : a.ancestorDistance b = some levels) : a.numericKind? = none ∨ b.numericKind? = none := by
  cases ha : a.numericKind? with
  | none => exact .inl rfl
  | some kind =>
    obtain ⟨u, habove, hsame⟩ := Ty.exists_of_ancestorDistance (by rw [h]; rfl)
    rcases Ty.above_of_not_declared (Ty.not_isDeclared_of_numericKind? ha) habove with
      rfl | ⟨-, rfl⟩
    · exact absurd hsame hkey
    · exact .inr (Ty.numericKind?_of_key hsame.symm)

theorem numericCast_eq_none (h : a.numericKind? = none ∨ b.numericKind? = none) :
    numericCast a b = none := by
  rw [numericCast]
  rcases h with h | h
  · rw [h]
    rfl
  · rw [h]
    cases a.numericKind? <;> rfl

theorem scalarCast_of_references (ha : a.isReference) (hb : b.isReference)
    (hnull : a.isNull = false) :
    scalarCast a b =
      if b.isObject then some (.ofImplicit a b .upcast Distance.toObject)
      else if a.isObject then some (.ofExplicit a b .downcast 0)
      else numericCast a b <|> referenceCast a b := by
  obtain ⟨herror, hvoid, hprimitive⟩ := Ty.plain_of_isReference ha
  obtain ⟨herror', hvoid', hprimitive'⟩ := Ty.plain_of_isReference hb
  have hboolean : booleanCast a b = none := by
    rw [booleanCast, boxingCast_of_references ha hb, ite_self]
  have hobject (h : a.isObject = true) : numericCast a b = none := by
    cases a <;> first | rfl | cases h
  have hcast : objectCast a b = .ofImplicit a b .upcast Distance.toObject := by
    rw [objectCast, Ty.isPrimitive, hprimitive]
    rfl
  unfold scalarCast
  simp only [herror, hvoid, herror', hvoid', hnull, hcast, hboolean, hprimitive, hprimitive', hb,
    Bool.or_self, Bool.false_eq_true, if_false, Bool.and_true]
  by_cases hroot : a.isObject = true
  · rw [if_pos hroot, if_pos hroot, hobject hroot]
    rfl
  · rw [if_neg hroot, if_neg hroot]
    cases numericCast a b <;> rfl

/-- Casts between references that are not both arrays. -/
theorem structuralCast_of_references (ha : a.isReference) (hb : b.isReference)
    (hnull : a.isNull = false) (hkey : a.key ≠ b.key)
    (harray : a.isArray = false ∨ b.isArray = false) :
    structuralCast a b =
      if b.isObject then some (.ofImplicit a b .upcast Distance.toObject)
      else if a.isObject then some (.ofExplicit a b .downcast 0)
      else numericCast a b <|> referenceCast a b := by
  rw [structuralCast_scalar hkey harray, scalarCast_of_references ha hb hnull]

theorem Ty.isObject_of_levels (hkey : a.key ≠ b.key) (h : a.ancestorDistance b = some levels) :
    a.isObject = false := by
  cases a with
  | object => exact absurd (Ty.key_eq_of_no_supers rfl h) hkey
  | _ => rfl

theorem Ty.isObject_of_key_ne (hkey : a.key ≠ Ty.object.key) : a.isObject = false := by
  cases a with
  | object => exact absurd rfl hkey
  | _ => rfl

theorem Ty.isNull_of_innermost (h : a.innermost.isNull = false) : a.isNull = false := by
  cases a with
  | array => rfl
  | _ => exact h

/-- The structural cast from `a` to `b` goes up, at the given distance. -/
def Ty.GoesUp (a b : Ty) (distance : Nat) : Prop :=
  ∃ c, structuralCast a b = some c ∧ c.kind = .upcast ∧ c.distance = distance

/-- The structural cast from `a` to `b` goes down. -/
def Ty.GoesDown (a b : Ty) : Prop := ∃ c, structuralCast a b = some c ∧ c.kind = .downcast

/-- Types without values are not converted. -/
theorem scalarCast_of_not_reference (ha : a.isPrimitive = false) (hb : b.isPrimitive = false)
    (h : ¬(a.isReference = true ∧ b.isReference = true)) : scalarCast a b = none := by
  have hvalueless {t : Ty} (ht : t.isPrimitive = false) (h : ¬t.isReference = true) :
      t.isError || t.isVoid := by
    cases t <;> first | rfl | exact absurd rfl h | cases ht
  rw [scalarCast, if_pos]
  by_cases hreference : a.isReference = true
  · rcases Bool.or_eq_true_iff.1 (hvalueless hb fun hb => h ⟨hreference, hb⟩) with hb | hb <;>
      simp [hb]
  · rcases Bool.or_eq_true_iff.1 (hvalueless ha hreference) with ha | ha <;> simp [ha]

/-- What a cast that goes up or down says about the order. -/
def Cast.Ordered (a b : Ty) (c : Cast) : Prop :=
  (c.kind = .upcast → a.Below b c.distance) ∧ (c.kind = .downcast → ∃ distance, b.Below a distance)

theorem Cast.Ordered.up (hkind : c.kind = .upcast) (h : a.Below b c.distance) : c.Ordered a b := by
  refine ⟨fun _ => h, fun hdown => ?_⟩
  cases hkind.symm.trans hdown

theorem Cast.Ordered.down (hkind : c.kind = .downcast) (h : b.Below a distance) :
    c.Ordered a b := by
  refine ⟨fun hup => ?_, fun _ => ⟨distance, h⟩⟩
  cases hkind.symm.trans hup

theorem Cast.Ordered.of_kind (h : c.kind ≠ .upcast ∧ c.kind ≠ .downcast) : c.Ordered a b :=
  ⟨fun hup => absurd hup h.1, fun hdown => absurd hdown h.2⟩

theorem structuralCast_ordered_of_references (ha : a.isReference) (hb : b.isReference)
    (hkey : a.key ≠ b.key)
    (h : (if b.isObject then some (.ofImplicit a b .upcast Distance.toObject)
      else if a.isObject then some (.ofExplicit a b .downcast 0)
      else numericCast a b <|> referenceCast a b) = some c) : c.Ordered a b := by
  split at h
  case isTrue hroot =>
    cases h
    cases b with
    | object => exact .up rfl (.root ha hkey)
    | _ => cases hroot
  case isFalse hb' =>
  split at h
  case isTrue hroot =>
    cases h
    cases a with
    | object => exact .down rfl (.root hb hkey.symm)
    | _ => cases hroot
  case isFalse ha' =>
  -- Below the root, a cast between wrappers of numbers goes neither up nor down.
  cases hnumeric : numericCast a b with
  | some cast =>
    rw [hnumeric] at h
    cases h
    exact .of_kind (numericCast_kind ha hb hnumeric)
  | none =>
    rw [hnumeric] at h
    change referenceCast a b = some c at h
    rw [referenceCast] at h
    split at h
    case h_1 levels hlevels =>
      cases h
      exact .up rfl (.ancestor ha hb (Bool.eq_false_iff.2 hb') hkey hlevels)
    case h_2 =>
      obtain ⟨levels, hlevels, rfl⟩ := Option.map_eq_some_iff.1 h
      exact .down rfl (.ancestor hb ha (Bool.eq_false_iff.2 ha') hkey.symm hlevels)

theorem liftToArrays_ordered {inner : Cast} (h : inner.Ordered a b)
    (hkind : inner.kind ≠ .nullToReference)
    (hlift : liftToArrays (.array a) (.array b) inner = some c) :
    c.Ordered (.array a) (.array b) := by
  rcases liftToArrays_cases hlift with ⟨hup | hnull, rfl⟩ | ⟨hdown, rfl⟩
  · exact .up rfl (.array (h.1 hup))
  · exact absurd hnull hkind
  · obtain ⟨distance, hbelow⟩ := h.2 hdown
    exact .down rfl (.array hbelow)

theorem structuralCast_ordered (ha : a.isPrimitive = false) (hb : b.isPrimitive = false)
    (hnull : a.innermost.isNull = false) (h : structuralCast a b = some c) : c.Ordered a b := by
  fun_induction structuralCast a b generalizing c with
  | case1 a b hkey =>
    cases h
    exact .of_kind ⟨by simp [Cast.identity], by simp [Cast.identity]⟩
  | case2 => cases h
  | case3 a b hprimitive hkey ih =>
    obtain ⟨inner, hinner, hlift⟩ := Option.bind_eq_some_iff.1 h
    simp only [Bool.or_eq_true, not_or, Bool.not_eq_true] at hprimitive
    refine liftToArrays_ordered (ih hprimitive.1 hprimitive.2 hnull hinner) ?_ hlift
    intro hkind
    have hstructural := (structuralCast_structural hinner).kind
    rw [hkind] at hstructural
    cases hstructural
    cases hnull
  | case4 a b hkey hnot =>
    by_cases hreference : a.isReference = true ∧ b.isReference = true
    · rw [scalarCast_of_references hreference.1 hreference.2 (Ty.isNull_of_innermost hnull)] at h
      exact structuralCast_ordered_of_references hreference.1 hreference.2 hkey h
    · rw [scalarCast_of_not_reference ha hb hreference] at h
      cases h

namespace Ty.ArrayHierarchy

variable {O : Ty → Prop} (hO : ArrayHierarchy O)

include hO

theorem goesUp_of_below (ha : O a) (hnull : a.innermost.isNull = false) (h : Below a b distance) :
    a.GoesUp b distance := by
  induction h with
  | @root a hreference hkey =>
    have hcast := structuralCast_of_references hreference rfl (isNull_of_innermost hnull)
      hkey (.inr rfl)
    exact ⟨_, hcast, rfl, rfl⟩
  | @ancestor a b levels hreference hreference' hobject hkey hlevels =>
    have hcast := structuralCast_of_references hreference hreference'
      (isNull_of_innermost hnull) hkey (.inl (hO.not_array_of_levels ha hkey hlevels).1)
    rw [hobject, isObject_of_levels hkey hlevels,
      numericCast_eq_none (numericKind?_of_levels hkey hlevels), referenceCast, hlevels] at hcast
    exact ⟨_, hcast, rfl, rfl⟩
  | @array a b distance h ih =>
    obtain ⟨c, hc, hkind, hdistance⟩ := ih (hO.component ha) hnull
    have hcast := structuralCast_arrays h.key_ne h.reference.1 h.reference.2
    rw [hc, Option.bind_some, liftToArrays, hkind] at hcast
    exact ⟨_, hcast, rfl, hdistance⟩

theorem goesDown_of_below (ha : O a) (hb : O b) (hnull : b.innermost.isNull = false)
    (h : Below a b distance) : b.GoesDown a := by
  induction h with
  | @root a hreference hkey =>
    have hcast := structuralCast_of_references rfl hreference rfl hkey.symm (.inl rfl)
    rw [isObject_of_key_ne hkey] at hcast
    exact ⟨_, hcast, rfl⟩
  | @ancestor a b levels hreference hreference' hobject hkey hlevels =>
    have hcast := structuralCast_of_references hreference' hreference
      (isNull_of_innermost hnull) hkey.symm (.inr (hO.not_array_of_levels ha hkey hlevels).1)
    have hback : b.ancestorDistance a = none := by
      cases hback : b.ancestorDistance a with
      | none => rfl
      | some => exact absurd (hO.ancestorDistance_antisymm ha hb hlevels hback) hkey
    rw [hobject, isObject_of_levels hkey hlevels,
      numericCast_eq_none (numericKind?_of_levels hkey hlevels).symm, referenceCast, hback,
      hlevels] at hcast
    exact ⟨_, hcast, rfl⟩
  | @array a b distance h ih =>
    obtain ⟨c, hc, hkind⟩ := ih (hO.component ha) (hO.component hb) hnull
    have hcast := structuralCast_arrays h.key_ne.symm h.reference.2 h.reference.1
    rw [hc, Option.bind_some, liftToArrays, hkind] at hcast
    exact ⟨_, hcast, rfl⟩

theorem goesUp_iff (ha : O a) (hreference : a.isReference) (hreference' : b.isReference)
    (hnull : a.innermost.isNull = false) : a.GoesUp b distance ↔ Below a b distance := by
  constructor
  · rintro ⟨c, hc, hkind, rfl⟩
    exact (structuralCast_ordered (isPrimitive_of_isReference hreference)
      (isPrimitive_of_isReference hreference') hnull hc).1 hkind
  · exact hO.goesUp_of_below ha hnull

theorem goesDown_iff (ha : O a) (hb : O b) (hreference : a.isReference)
    (hreference' : b.isReference) (hnull : a.innermost.isNull = false) :
    a.GoesDown b ↔ ∃ distance, Below b a distance := by
  constructor
  · rintro ⟨c, hc, hkind⟩
    exact (structuralCast_ordered (isPrimitive_of_isReference hreference)
      (isPrimitive_of_isReference hreference') hnull hc).2 hkind
  · rintro ⟨distance, h⟩
    exact hO.goesDown_of_below hb ha hnull h

end Ty.ArrayHierarchy

end References

/-- Upcasts of references, null and its arrays apart, are a strict order: where one type goes up to
another, that one goes down to it and not up, and two upcasts after each other are never shorter
than the direct one. -/
theorem upcasts_strict_order {O : Ty → Prop} (hO : Ty.ArrayHierarchy O) {a b c : Ty}
    (ha : O a) (hb : O b) (hc : O c)
    (hreferences : ∀ t ∈ [a, b, c], t.isReference = true ∧ t.innermost.isNull = false) :
    ((∃ distance, a.GoesUp b distance) ↔ b.GoesDown a) ∧
    ¬((∃ distance, a.GoesUp b distance) ∧ ∃ distance, b.GoesUp a distance) ∧
    ∀ m n, a.GoesUp b m → b.GoesUp c n → ∃ direct ≤ m + n, a.GoesUp c direct := by
  obtain ⟨⟨hrefA, hnullA⟩, ⟨hrefB, hnullB⟩, ⟨hrefC, -⟩, -⟩ : (_ ∧ _) ∧ (_ ∧ _) ∧ (_ ∧ _) ∧ _ := by
    simpa only [List.forall_mem_cons] using hreferences
  refine ⟨?_, ?_, ?_⟩
  · rw [hO.goesDown_iff hb ha hrefB hrefA hnullB]
    exact exists_congr fun _ => hO.goesUp_iff ha hrefA hrefB hnullA
  · rintro ⟨⟨m, hup⟩, n, hback⟩
    exact hO.below_asymm ha hb ((hO.goesUp_iff ha hrefA hrefB hnullA).1 hup)
      ((hO.goesUp_iff hb hrefB hrefA hnullB).1 hback)
  · intro m n hup hfurther
    obtain ⟨direct, hle, hdirect⟩ := hO.below_trans ha hb hc
      ((hO.goesUp_iff ha hrefA hrefB hnullA).1 hup)
      ((hO.goesUp_iff hb hrefB hrefC hnullB).1 hfurther)
    exact ⟨direct, hle, hO.goesUp_of_below ha hnullA hdirect⟩

/-! ## Hierarchies of listed types -/

namespace Ty

variable {t u : Ty}

theorem innermost_of_not_array (h : t.isArray = false) : t.innermost = t := by
  cases t with
  | array => cases h
  | _ => rfl

theorem supers_of_isArray (h : t.isArray = true) : t.supers = [] := by
  cases t with
  | array => rfl
  | _ => cases h

theorem isArray_eq_of_key (h : t.key = u.key) : t.isArray = u.isArray := by
  cases t with
  | array => exact (isArray_of_key h.symm).symm
  | _ =>
    cases u with
    | array => cases isArray_of_key h
    | _ => rfl

/-- Listed types with their super-types, and all arrays of them. -/
theorem ArrayHierarchy.of_list {own : List Ty}
    (hown : ∀ t ∈ own, t.isArray = false ∧ ∀ u ∈ t.supers, u ∈ own)
    (halike : ∀ t ∈ own, ∀ u ∈ own, t.key = u.key → t.supers.map key = u.supers.map key) :
    ArrayHierarchy (fun t => t.innermost ∈ own) := by
  have hmem {t u : Ty} (ht : t.innermost ∈ own) (hu : u ∈ t.supers) : u ∈ own := by
    cases harray : t.isArray with
    | true =>
      rw [supers_of_isArray harray] at hu
      cases hu
    | false =>
      rw [innermost_of_not_array harray] at ht
      exact (hown t ht).2 u hu
  refine ⟨⟨?_, ?_⟩, fun ht => ht, fun ht hu => (hown _ (hmem ht hu)).1⟩
  · intro t u ht hu
    rw [innermost_of_not_array (hown u (hmem ht hu)).1]
    exact hmem ht hu
  · intro t u ht hu hkey
    cases harray : t.isArray with
    | true =>
      rw [supers_of_isArray harray, supers_of_isArray (isArray_eq_of_key hkey ▸ harray)]
    | false =>
      rw [innermost_of_not_array harray] at ht
      rw [innermost_of_not_array (isArray_eq_of_key hkey ▸ harray)] at hu
      exact halike t ht u hu hkey

end Ty

namespace Shapes

def shape : Ty := .interface 0 ⟨"rules", "Shape"⟩ []

def rectangle : Ty := .record 1 ⟨"rules", "Rectangle"⟩ [shape]

/-- A class that names the interface once more, in a declaration of its own. -/
def square : Ty := .record 2 ⟨"rules", "Square"⟩ [rectangle, .interface 3 ⟨"rules", "Shape"⟩ []]

def types : List Ty := [square, rectangle, shape, .interface 3 ⟨"rules", "Shape"⟩ []]

theorem hierarchy : Ty.ArrayHierarchy (fun t => t.innermost ∈ types) := by
  refine .of_list ?_ (by decide +kernel)
  simp [types, square, rectangle, shape, Ty.isArray, Ty.supers]

/-- Shapes in rows and columns. -/
abbrev grid (t : Ty) : Ty := .array (.array t)

theorem grid_goesUp {a b : Ty} {levels : Nat} (hmem : a ∈ types)
    (ha : a.isReference ∧ a.innermost = a ∧ a.isNull = false)
    (hb : b.isReference ∧ b.isObject = false) (hkey : a.key ≠ b.key)
    (hlevels : a.ancestorDistance b = some levels) :
    (grid a).GoesUp (grid b) (levels * Distance.upcastStep) := by
  have hinnermost : (grid a).innermost = a := ha.2.1
  refine hierarchy.goesUp_of_below ?_ ?_ (.array (.array (.ancestor ha.1 hb.1 hb.2 hkey hlevels)))
  · rwa [hinnermost]
  · rw [hinnermost]
    exact ha.2.2

end Shapes

open Shapes in
/-- Grids of squares go up to grids of shapes in one step, which is shorter than by rectangles. -/
theorem upcasts_strict_order_grids :
    Ty.ArrayHierarchy (fun t => t.innermost ∈ types) ∧
    (∀ t ∈ [grid square, grid rectangle, grid shape],
      t.innermost ∈ types ∧ t.isReference = true ∧ t.innermost.isNull = false) ∧
    (grid square).GoesUp (grid rectangle) 2 ∧ (grid rectangle).GoesUp (grid shape) 2 ∧
    (grid rectangle).GoesDown (grid square) ∧
    (∃ direct ≤ 4, (grid square).GoesUp (grid shape) direct) ∧
    (grid square).GoesUp (grid shape) 2 := by
  have htypes : ∀ t ∈ [grid square, grid rectangle, grid shape],
      t.innermost ∈ types ∧ t.isReference = true ∧ t.innermost.isNull = false := by
    simp [types, Ty.innermost, Ty.isReference, square, rectangle, shape, Ty.isNull]
  have hsquare : square ∈ types := by simp [types]
  have hrectangle : rectangle ∈ types := by simp [types]
  have hfirst : (grid square).GoesUp (grid rectangle) 2 :=
    grid_goesUp hsquare ⟨rfl, rfl, rfl⟩ ⟨rfl, rfl⟩ (by decide) (by decide +kernel : _ = some 1)
  have hsecond : (grid rectangle).GoesUp (grid shape) 2 :=
    grid_goesUp hrectangle ⟨rfl, rfl, rfl⟩ ⟨rfl, rfl⟩ (by decide) (by decide +kernel : _ = some 1)
  have hdirect : (grid square).GoesUp (grid shape) 2 :=
    grid_goesUp hsquare ⟨rfl, rfl, rfl⟩ ⟨rfl, rfl⟩ (by decide) (by decide +kernel : _ = some 1)
  obtain ⟨hdual, -, htriangle⟩ := upcasts_strict_order hierarchy
    (htypes _ (by simp)).1 (htypes _ (by simp)).1 (htypes _ (by simp)).1
    fun t ht => (htypes t ht).2
  exact ⟨hierarchy, htypes, hfirst, hsecond, hdual.1 ⟨2, hfirst⟩,
    htriangle 2 2 hfirst hsecond, hdirect⟩

end RuleExpr

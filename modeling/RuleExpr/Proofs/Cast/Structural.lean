import RuleExpr.Cast.Structural

/-!
# Kinds of Structural Casts

`structuralCast` decides by a long chain of tests.  `ScalarCast` says once what the tests between
two types that are not both arrays answer: one constructor for each test, with the cast and what
the test has seen of the types.  `StructuralKind` leaves out the distances and adds the arrays.
Everything else about structural casts is proved by cases on the two.
-/

namespace RuleExpr

/-- Kinds of casts that follow from the structure of two types. -/
inductive StructuralKind : Ty → Ty → CastKind → Prop
  | identity {a b : Ty} (hkey : a.key = b.key) : StructuralKind a b .identity
  | null {b : Ty} (hb : b.isReference) : StructuralKind .null b .nullToReference
  | boxObject (p : Primitive) : StructuralKind (.primitive p) .object .boxing
  | object {a : Ty} (ha : a.isPrimitive = false) : StructuralKind a .object .upcast
  | box (p : Primitive) : StructuralKind (.primitive p) (.boxed p) .boxing
  | unbox (p : Primitive) : StructuralKind (.boxed p) (.primitive p) .unboxing
  | widen {a b : Ty} {given wanted : NumericKind} (ha : a.numericKind? = some given)
      (hb : b.numericKind? = some wanted) (hwidens : given.widensTo wanted) :
      StructuralKind a b (.widening wanted)
  | narrow {a b : Ty} {given wanted : NumericKind} (ha : a.numericKind? = some given)
      (hb : b.numericKind? = some wanted) : StructuralKind a b (.narrowing wanted)
  | boxAncestor {p : Primitive} {b : Ty} (hb : ((Ty.boxed p).ancestorDistance b).isSome) :
      StructuralKind (.primitive p) b .boxing
  | unboxUnchecked {a : Ty} {p : Primitive} {kind : NumericKind} (hp : p.numeric? = some kind)
      (ha : a.isObject ∨ ((Ty.boxed p).ancestorDistance a).isSome) :
      StructuralKind a (.primitive p) (.narrowing kind)
  | up {a b : Ty} (h : (a.ancestorDistance b).isSome) : StructuralKind a b .upcast
  | down {a b : Ty} : StructuralKind a b .downcast
  | array {a b : Ty} {kind : CastKind} (ha : a.isPrimitive = false) (hb : b.isPrimitive = false)
      (h : StructuralKind a b kind) (hkind : kind = .upcast ∨ kind = .nullToReference) :
      StructuralKind (.array a) (.array b) .upcast

/-- A cast from `a` to `b` that follows from their structure; an identity keeps the type `a`. -/
structure IsStructural (a b : Ty) (c : Cast) : Prop where
  source_eq : c.source = a
  target_eq : c.target = if c.isIdentity then a else b
  kind : StructuralKind a b c.kind

variable {a b : Ty} {c : Cast}

/-- A structural cast that does nothing is between types of one key. -/
theorem IsStructural.key_eq (h : IsStructural a b c) (hidentity : c.isIdentity = true) :
    a.key = b.key := by
  unfold Cast.isIdentity at hidentity
  have hkind := h.kind
  cases hkind' : c.kind with
  | identity =>
    rw [hkind'] at hkind
    cases hkind with
    | identity hkey => exact hkey
  | _ =>
    rw [hkind'] at hidentity
    cases hidentity

/-- Casts between two types that are not both arrays: one constructor for each test that answers,
with what it has seen of the types. -/
inductive ScalarCast : Ty → Ty → Cast → Prop
  | null {b : Ty} (hb : b.isReference) :
      ScalarCast .null b (.ofImplicit .null b .nullToReference
        (if b.isObject then Distance.toObject else Distance.nullToReference))
  | boxObject (p : Primitive) :
      ScalarCast (.primitive p) .object
        (.ofImplicit (.primitive p) .object .boxing (Distance.boxing + Distance.toObject))
  | object {a : Ty} (ha : a.isPrimitive = false) :
      ScalarCast a .object (.ofImplicit a .object .upcast Distance.toObject)
  | box (p : Primitive) :
      ScalarCast (.primitive p) (.boxed p)
        (.ofImplicit (.primitive p) (.boxed p) .boxing Distance.boxing)
  | unbox (p : Primitive) :
      ScalarCast (.boxed p) (.primitive p)
        (.ofImplicit (.boxed p) (.primitive p) .unboxing Distance.unboxing)
  | widen {a b : Ty} {given wanted : NumericKind} (ha : a.numericKind? = some given)
      (hb : b.numericKind? = some wanted) (hwidens : given.widensTo wanted) :
      ScalarCast a b (.ofImplicit a b (.widening wanted) (wideningDistance a b given wanted))
  | narrow {a b : Ty} {given wanted : NumericKind} (ha : a.numericKind? = some given)
      (hb : b.numericKind? = some wanted) :
      ScalarCast a b (.ofExplicit a b (.narrowing wanted) (rankGap given wanted))
  | boxAncestor {p : Primitive} {b : Ty} {levels : Nat}
      (hb : (Ty.boxed p).ancestorDistance b = some levels) :
      ScalarCast (.primitive p) b (.ofImplicit (.primitive p) b .boxing
        (Distance.boxing + levels * Distance.upcastStep))
  | unboxUnchecked {a : Ty} {p : Primitive} {kind : NumericKind} (hp : p.numeric? = some kind)
      (ha : a.isObject ∨ ((Ty.boxed p).ancestorDistance a).isSome) :
      ScalarCast a (.primitive p) (.ofExplicit a (.primitive p) (.narrowing kind) Distance.unboxing)
  | fromRoot {a b : Ty} (ha : a.isObject) (hb : b.isReference) :
      ScalarCast a b (.ofExplicit a b .downcast 0)
  | up {a b : Ty} {levels : Nat} (hb : b.isObject = false)
      (h : a.ancestorDistance b = some levels) :
      ScalarCast a b (.ofImplicit a b .upcast (levels * Distance.upcastStep))
  | down {a b : Ty} {levels : Nat} (hroot : (a.isObject && b.isReference) = false)
      (h : b.ancestorDistance a = some levels) :
      ScalarCast a b (.ofExplicit a b .downcast (levels * Distance.upcastStep))

theorem boxingCast_cases (h : boxingCast a b = some c) : ScalarCast a b c := by
  unfold boxingCast at h
  split at h
  · split at h
    case isTrue hsame =>
      cases h
      subst hsame
      exact .box _
    case isFalse => cases h
  · split at h
    case isTrue hsame =>
      cases h
      subst hsame
      exact .unbox _
    case isFalse => cases h
  · cases h

theorem numericCast_cases (h : numericCast a b = some c) : ScalarCast a b c := by
  obtain ⟨given, hgiven, h⟩ := Option.bind_eq_some_iff.1 h
  obtain ⟨wanted, hwanted, h⟩ := Option.bind_eq_some_iff.1 h
  split at h
  · exact boxingCast_cases h
  · split at h
    case isTrue hwidens =>
      cases h
      exact .widen hgiven hwanted hwidens
    case isFalse =>
      cases h
      exact .narrow hgiven hwanted

theorem booleanOrNumeric_cases (h : (booleanCast a b <|> numericCast a b) = some c) :
    ScalarCast a b c := by
  unfold booleanCast at h
  split at h
  · cases hboxing : boxingCast a b with
    | some boxing =>
      rw [hboxing] at h
      cases h
      exact boxingCast_cases hboxing
    | none =>
      rw [hboxing] at h
      exact numericCast_cases h
  · exact numericCast_cases h

theorem nullCast_cases (h : nullCast b = some c) : ScalarCast .null b c := by
  unfold nullCast at h
  split at h
  case isTrue hb =>
    cases h
    exact .null hb
  case isFalse => cases h

theorem objectCast_cases (a : Ty) : ScalarCast a .object (objectCast a .object) := by
  unfold objectCast
  split
  case isTrue ha =>
    cases a with
    | primitive p => exact .boxObject p
    | _ => cases ha
  case isFalse ha => exact .object (Bool.eq_false_iff.2 ha)

theorem boxedAncestorCast_cases {p : Primitive} (h : boxedAncestorCast p b = some c) :
    ScalarCast (.primitive p) b c := by
  obtain ⟨levels, hlevels, rfl⟩ := Option.map_eq_some_iff.1 h
  exact .boxAncestor hlevels

theorem uncheckedUnboxing_cases {p : Primitive} {kind : NumericKind} (hp : p.numeric? = some kind)
    (h : uncheckedUnboxing a p kind = some c) : ScalarCast a (.primitive p) c := by
  unfold uncheckedUnboxing at h
  split at h
  case isTrue hsource =>
    cases h
    exact .unboxUnchecked hp (by simpa using hsource)
  case isFalse => cases h

/-- The tests for types that are neither numbers nor truth values. -/
theorem downOrReference_cases (hb : b.isObject = false)
    (h : (if a.isObject && b.isReference then some (.ofExplicit a b .downcast 0)
      else referenceCast a b) = some c) : ScalarCast a b c := by
  split at h
  case isTrue hroot =>
    cases h
    exact .fromRoot (Bool.and_eq_true_iff.1 hroot).1 (Bool.and_eq_true_iff.1 hroot).2
  case isFalse hroot =>
    unfold referenceCast at h
    split at h
    case h_1 levels hlevels =>
      cases h
      exact .up hb hlevels
    case h_2 =>
      obtain ⟨levels, hlevels, rfl⟩ := Option.map_eq_some_iff.1 h
      exact .down (Bool.eq_false_iff.2 hroot) hlevels

theorem scalarCast_cases (h : scalarCast a b = some c) : ScalarCast a b c := by
  unfold scalarCast at h
  split at h
  · cases h
  split at h
  case isTrue hnull =>
    cases a with
    | null => exact nullCast_cases h
    | _ => cases hnull
  split at h
  case isTrue hobject =>
    cases b with
    | object =>
      cases h
      exact objectCast_cases a
    | _ => cases hobject
  case isFalse hobject =>
  rw [Bool.not_eq_true] at hobject
  split at h
  case h_1 cast hcast =>
    cases h
    exact booleanOrNumeric_cases hcast
  case h_2 =>
    split at h
    case h_1 p hp =>
      cases a with
      | primitive q =>
        cases hp
        exact boxedAncestorCast_cases h
      | _ => cases hp
    case h_2 p ha hb =>
      split at h
      case h_1 kind hkind =>
        cases b with
        | primitive q =>
          cases hb
          exact uncheckedUnboxing_cases hkind h
        | _ => cases hb
      case h_2 => exact downOrReference_cases hobject h
    case h_3 => exact downOrReference_cases hobject h

/-- Between arrays there are only casts up and down. -/
theorem liftToArrays_cases {inner : Cast} (h : liftToArrays a b inner = some c) :
    (inner.kind = .upcast ∨ inner.kind = .nullToReference) ∧
        c = .ofImplicit a b .upcast inner.distance ∨
      inner.kind = .downcast ∧
        c = .ofExplicit a b .downcast (inner.distance - Distance.explicit) := by
  unfold liftToArrays at h
  split at h
  case h_1 hup =>
    cases h
    exact .inl ⟨.inl hup, rfl⟩
  case h_2 hnull =>
    cases h
    exact .inl ⟨.inr hnull, rfl⟩
  case h_3 hdown =>
    cases h
    exact .inr ⟨hdown, rfl⟩
  case h_4 => cases h

theorem scalarCast_structural (h : scalarCast a b = some c) : IsStructural a b c := by
  cases scalarCast_cases h with
  | null hb => exact ⟨rfl, rfl, .null hb⟩
  | boxObject p => exact ⟨rfl, rfl, .boxObject p⟩
  | object ha => exact ⟨rfl, rfl, .object ha⟩
  | box p => exact ⟨rfl, rfl, .box p⟩
  | unbox p => exact ⟨rfl, rfl, .unbox p⟩
  | widen ha hb hwidens => exact ⟨rfl, rfl, .widen ha hb hwidens⟩
  | narrow ha hb => exact ⟨rfl, rfl, .narrow ha hb⟩
  | boxAncestor hb => exact ⟨rfl, rfl, .boxAncestor (by rw [hb]; rfl)⟩
  | unboxUnchecked hp ha => exact ⟨rfl, rfl, .unboxUnchecked hp ha⟩
  | up _ hlevels => exact ⟨rfl, rfl, .up (by rw [hlevels]; rfl)⟩
  | fromRoot | down => exact ⟨rfl, rfl, .down⟩

theorem liftToArrays_structural {inner : Cast} (ha : a.isPrimitive = false)
    (hb : b.isPrimitive = false) (hinner : StructuralKind a b inner.kind)
    (h : liftToArrays (.array a) (.array b) inner = some c) :
    IsStructural (.array a) (.array b) c := by
  rcases liftToArrays_cases h with ⟨hkind, rfl⟩ | ⟨-, rfl⟩
  · exact ⟨rfl, rfl, .array ha hb hinner hkind⟩
  · exact ⟨rfl, rfl, .down⟩

theorem structuralCast_scalar (hkey : a.key ≠ b.key) (h : a.isArray = false ∨ b.isArray = false) :
    structuralCast a b = scalarCast a b := by
  rw [structuralCast.eq_def, if_neg hkey]
  split
  case h_1 => rcases h with h | h <;> cases h
  case h_2 => rfl

theorem structuralCast_structural (h : structuralCast a b = some c) : IsStructural a b c := by
  fun_induction structuralCast a b generalizing c with
  | case1 a b hkey =>
    cases h
    exact ⟨rfl, rfl, .identity hkey⟩
  | case2 => cases h
  | case3 a b hprimitive hkey ih =>
    obtain ⟨inner, hinner, hlift⟩ := Option.bind_eq_some_iff.1 h
    simp only [Bool.or_eq_true, not_or, Bool.not_eq_true] at hprimitive
    exact liftToArrays_structural hprimitive.1 hprimitive.2 (ih hinner).kind hlift
  | case4 => exact scalarCast_structural h

end RuleExpr

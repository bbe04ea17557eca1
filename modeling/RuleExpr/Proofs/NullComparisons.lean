import RuleExpr.Proofs.ComparisonOverloads
import RuleExpr.Proofs.Evaluation.Locality

/-!
# Comparisons with Null

The operands of a loose comparison are lifted if one of them has a boxed type, so that a null
operand gives "unknown" instead of a failure to unbox.  Lifting asks for two types of numbers or of
truth values, and a wrapper is neither.  A box of numbers and a wrapper over a primitive kind are
therefore compared as plain numbers, and null is refused there; beside all other types it is kept.

Kept or not, the other operand is converted as well.  A whole number without bounds that is compared
with a floating kind becomes a decimal, which it may be too large for.  No other conversion fails.

All types that their keys tell apart are covered but one kind: a class that extends truth values
goes up to them where it is compared with a box of them, and an object is none.  What is proved is
about calls of the library: a module may declare a method with the name of a comparison, and then
that method may be called.
-/

namespace RuleExpr

open Fallible BindM

variable {O : Ty → Prop} {d : Declarations} {op : Comparison} {p : Primitive} {t q a b : Ty}
  {v x y : Value} {c : Cast} {left right n : BoundNode} {frames frames' : Frames}

/-- What a node wrapped in the cast makes of its value. -/
def Cast.outcome (c : Cast) (v : Value) : Except EvalError Value :=
  if c.isIdentity then .ok v else (c.apply v (Frames.single 0)).1

theorem BoundNode.wrap_eval {node : BoundNode} (c : Cast)
    (h : node.eval frames = (.ok v, frames')) :
    (node.wrap c).eval frames = (c.outcome v, frames') := by
  unfold wrap Cast.outcome
  split
  · exact h
  · obtain ⟨r, hr⟩ := c.apply_frameless v
    rw [eval, BoundShape.eval, run_bind, h]
    dsimp only
    rw [hr, hr]

/-- A structural cast hands on its value, or converts it to a kind of numbers that the target
holds. -/
theorem StructuralKind.apply_cases {kind : CastKind} (h : StructuralKind a b kind) (v : Value)
    (frames : Frames) : (kind.apply v frames).1 = .ok v ∨
      ∃ number, b.holds number ∧ (kind.apply v frames).1 = v.convert number := by
  cases h with
  | widen _ hwanted | narrow _ hwanted =>
    refine .inr ⟨_, Ty.holds_of_numericKind? hwanted, ?_⟩
    rw [CastKind.apply]
    rfl
  | unboxUnchecked hp =>
    refine .inr ⟨_, Ty.holds_of_numericKind? hp, ?_⟩
    rw [CastKind.apply]
    rfl
  | _ =>
    left
    rw [CastKind.apply]
    rfl

theorem Ty.eq_of_holds {kind number : NumericKind} (hkind : t.numericKind? = some kind)
    (h : t.holds number) : number = kind := by
  have hnumber : t.numericKind? = some number := by
    cases t <;> first | exact of_decide_eq_true h | cases hkind
  exact Option.some.inj (hnumber.symm.trans hkind)

section

variable (hO : Ty.Keyed O) (ha : O a) (hb : O b)
  (h : Library.registry.implicitCast a b = .ok (some c)) (hnull : v.isNull → b.isPrimitive = false)

include hO ha hb h

/-- Null is refused where a primitive type is asked for. -/
theorem Cast.outcome_refused (hreference : a.isPrimitive = false) (hprimitive : b.isPrimitive) :
    c.outcome .null = .error (.nullValue b.name) := by
  have htarget : c.target = b := hO.implicitCast_target ha hb h
  rcases Registry.implicitCast_eq_some h with ⟨hkey, -⟩ | hcast
  · rw [hO.eq_of_key ha hb hkey, hprimitive] at hreference
    cases hreference
  · rw [outcome, if_neg]
    · rcases c.apply_cases .null (.single 0) with ⟨-, -, hanswer⟩ | ⟨hnot, -⟩
      · rw [hanswer, htarget]
      · simp [htarget ▸ hnot rfl] at hprimitive
    · intro hidentity
      rw [hO.eq_of_key ha hb (Library.registry_faithful hcast hidentity), hprimitive] at hreference
      cases hreference

include hnull

/-- Otherwise a cast does what its kind says. -/
theorem Cast.outcome_eq_apply : c.outcome v = (c.kind.apply v (Frames.single 0)).1 := by
  have htarget : c.target = b := hO.implicitCast_target ha hb h
  unfold outcome
  split
  case isTrue hidentity =>
    unfold Cast.isIdentity at hidentity
    split at hidentity
    case h_1 hkind =>
      rw [hkind, CastKind.apply]
      rfl
    case h_2 => cases hidentity
  case isFalse =>
    rcases c.apply_cases v (.single 0) with ⟨hv, hprimitive, -⟩ | ⟨-, hanswer⟩
    · rw [htarget, hnull hv] at hprimitive
      cases hprimitive
    · exact hanswer

/-- It hands on its value, or converts it to a kind of numbers that the target holds. -/
theorem Cast.outcome_cases :
    c.outcome v = .ok v ∨ ∃ kind, b.holds kind ∧ c.outcome v = v.convert kind := by
  rw [outcome_eq_apply hO ha hb h hnull]
  rcases Registry.implicitCast_eq_some h with ⟨hkey, rfl⟩ | hcast
  · exact (StructuralKind.identity hkey).apply_cases v _
  · rcases Library.registry_cast_marked hcast with ⟨hstructural, -⟩ | ⟨entry, hcalls⟩
    · exact hstructural.kind.apply_cases v _
    · obtain ⟨kind, hholds, hconvert⟩ := hcalls.converts hO hb
      exact .inr ⟨kind, hholds, hconvert v _⟩

/-- Numbers are converted to a wider kind. -/
theorem Cast.outcome_widening {kind wider : NumericKind} (hkind : a.heldKind? = some kind)
    (hwider : b.numericKind? = some wider) (hne : kind ≠ wider) :
    c.outcome v = v.convert wider := by
  -- A kind that differs leaves only the cast that widens: all others stay at a kind or go up.
  have hapart : ¬Relation.ReflTransGen Ty.Extends a b := by
    intro habove
    have hdeclared : a.isDeclared = false := by cases a <;> first | rfl | cases hkind
    rcases Ty.above_of_not_declared hdeclared habove with rfl | ⟨-, rfl⟩
    · rw [Ty.heldKind?_of_numericKind? hwider, Option.some.injEq] at hkind
      exact hne hkind.symm
    · cases hwider
  rw [outcome_eq_apply hO ha hb h hnull]
  rcases Registry.implicitCast_eq_some h with ⟨hkey, -⟩ | hcast
  · exact absurd (hO.eq_of_key ha hb hkey ▸ .refl) hapart
  rcases Library.registry_cast_marked hcast with ⟨hstructural, hmarked⟩ | ⟨entry, hcalls⟩
  · have hkind' := hstructural.kind
    have himplicit := hmarked.implicit_eq.symm.trans (Registry.implicit_of_implicitCast h)
    generalize c.kind = applied at hkind' himplicit
    cases hkind' with
    | identity hkey => exact absurd (hO.eq_of_key ha hb hkey ▸ .refl) hapart
    | null | array => cases hkind
    | boxObject | object => cases hwider
    | box | unbox => exact absurd (Option.some.inj (hkind.symm.trans hwider)) hne
    | widen _ hwanted =>
      rw [CastKind.apply, Option.some.inj (hwanted.symm.trans hwider)]
      rfl
    | boxAncestor hancestor =>
      obtain ⟨levels, hlevels⟩ := Option.isSome_iff_exists.1 hancestor
      rcases Ty.above_of_not_declared rfl (hO.above (hO.builtin rfl) hb hlevels) with rfl | ⟨-, rfl⟩
      · exact absurd (Option.some.inj (hkind.symm.trans hwider)) hne
      · cases hwider
    | up hancestor =>
      obtain ⟨levels, hlevels⟩ := Option.isSome_iff_exists.1 hancestor
      exact absurd (hO.above ha hb hlevels) hapart
    | narrow | unboxUnchecked | down => cases himplicit
  · obtain ⟨number, hholds, hconvert⟩ := hcalls.converts hO hb
    rw [hconvert, Ty.eq_of_holds hwider hholds]

end

theorem Cast.outcome_null (hO : Ty.Keyed O) (ha : O a) (hb : O b)
    (h : Library.registry.implicitCast a b = .ok (some c)) (hprimitive : b.isPrimitive = false) :
    c.outcome .null = .ok .null := by
  rcases outcome_cases hO ha hb h fun _ => hprimitive with houtcome | ⟨kind, -, houtcome⟩
  · exact houtcome
  · exact houtcome

theorem Assignable.null_or_number {kind : NumericKind} (ht : t.heldKind? = some kind)
    (h : Assignable d v t) : v = .null ∨ v.numericKind? = some kind := by
  have hother : t.component? = none ∧ t.isClass = false ∧ t.isTop = false ∧
      ∀ number, t.holds number → number = kind := by
    cases t <;> simp_all [Ty.heldKind?, Ty.numericKind?, Ty.component?, Ty.isClass, Ty.isTop,
      Ty.holds]
  obtain ⟨hcomponent, hclass, htop, hnumber⟩ := hother
  cases h with
  | null => exact .inl rfl
  | number hv hholds => exact .inr (hnumber _ hholds ▸ hv)
  | bool hboolean =>
    rw [Ty.heldKind?_of_isBooleanLike hboolean] at ht
    cases ht
  | string => cases ht
  | array hcomponent' => simp [hcomponent] at hcomponent'
  | object hclass' => simp [hclass] at hclass'
  | top htop' => simp [htop] at htop'

/-- Truth values and null. -/
def Value.IsTruth (v : Value) : Prop := v = .null ∨ ∃ b, v = .bool b

/-- A number converts to the kind that it and a primitive one are promoted to, unless it is a
whole number without an end that is out of bounds for decimals. -/
theorem Value.numberAs?_promote {kind given : NumericKind} (hp : p.numeric? = some kind)
    (hv : v.numericKind? = some given) :
    (v.numberAs? (kind.promote given)).isSome ∨
      kind.isFloating ∧ ∃ i, v = .bigInteger i ∧ Number.Decimal.ofInt? i = none := by
  cases v with
  | bool | null | string | array | object => cases hv
  | bigInteger i =>
    cases hv
    cases hdecimal : Number.Decimal.ofInt? i with
    | none =>
      cases p with
      | boolean => cases hp
      | float | double =>
        cases hp
        exact .inr ⟨rfl, i, rfl, hdecimal⟩
      | _ =>
        cases hp
        exact .inl rfl
    | some decimal =>
      left
      cases p <;> cases hp <;>
        simp [NumericKind.promote, NumericKind.rank, NumericKind.isFloating, numberAs?, toInt?,
          toDecimal?, hdecimal]
  | _ =>
    cases hv
    left
    cases p <;> cases hp <;> rfl

namespace Ty

variable {kind given number : NumericKind}

theorem numericKind?_of_promoted (h : t = ofNumericKind kind ∨ t = (ofNumericKind kind).box) :
    t.numericKind? = some kind := by
  rcases h with rfl | rfl
  · exact Library.numericKind?_ofNumericKind kind
  · cases kind <;> rfl

theorem numericKind?_comparedAt (hp : p.numeric? = some kind) (ht : t.heldKind? = some given) :
    (t.comparedAt p).numericKind? = some (kind.promote given) := by
  have hnull : t.isNull = false := by cases t <;> first | rfl | cases ht
  apply numericKind?_of_promoted
  rw [comparedAt, hp]
  dsimp only
  rw [hnull, if_neg Bool.false_ne_true, ht]
  dsimp only
  split
  · exact .inl rfl
  · exact .inr rfl

/-- What is compared as numbers is null, or holds numbers. -/
theorem held_of_comparedAt (h : (t.comparedAt p).holds number) :
    ∃ kind given, p.numeric? = some kind ∧ (t.isNull ∨ t.heldKind? = some given) := by
  rcases t.comparedAt_cases p with ⟨-, hat⟩ | hat | ⟨kind, given, hp, ht, -⟩
  · rw [hat] at h
    cases h
  · rw [hat] at h
    cases h
  · exact ⟨kind, given, hp, ht⟩

/-- What is compared as truth values is null, or of a type of truth values. -/
theorem truth_of_comparedAt (h : t.comparedAt p = boxed .boolean) :
    t.isNull ∨ t.isBooleanLike := by
  rcases t.comparedAt_cases p with ⟨htruth, -⟩ | hat | ⟨kind, given, -, -, hat⟩
  · exact htruth
  · cases hat.symm.trans h
  · have hkind := numericKind?_of_promoted hat
    rw [h] at hkind
    cases hkind

theorem comparedAt_ne_string (p : Primitive) (t : Ty) : t.comparedAt p ≠ string := by
  intro h
  rcases t.comparedAt_cases p with ⟨-, hat⟩ | hat | ⟨kind, given, -, -, hat⟩
  · cases hat.symm.trans h
  · cases hat.symm.trans h
  · have hkind := numericKind?_of_promoted hat
    rw [h] at hkind
    cases hkind

/-- A wrapper over a primitive kind of numbers that is compared with a box of numbers.  They are
not lifted, and plain numbers are nearest to both. -/
def unboxes (p : Primitive) : Ty → Bool
  | wrapper quantity => p.numeric?.isSome && quantity.numeric.primitive?.isSome
  | _ => false

theorem isPrimitive_comparedAt (p : Primitive) (t : Ty) :
    (t.comparedAt p).isPrimitive = t.unboxes p := by
  cases t with
  | primitive r | boxed r => cases p <;> cases r <;> rfl
  | wrapper quantity => cases p <;> cases quantity <;> rfl
  | _ => cases p <;> rfl

end Ty

/-- A whole number without bounds is compared with a floating kind, and is out of bounds for the
decimals in which the comparison is made. -/
def TooLarge (p : Primitive) (t : Ty) (v : Value) : Prop :=
  ∃ kind i, p.numeric? = some kind ∧ kind.isFloating ∧ t.heldKind? = some .bigInteger ∧
    v = .bigInteger i ∧ Number.Decimal.ofInt? i = none

theorem TooLarge.unboxes (h : TooLarge p t v) : t.unboxes p = false := by
  obtain ⟨kind, i, -, -, hheld, -, -⟩ := h
  cases t with
  | wrapper quantity =>
    have hnumeric : quantity.numeric = .bigInteger := Option.some.inj hheld
    rw [Ty.unboxes, hnumeric]
    exact Bool.and_false _
  | _ => rfl

/-- A class below a type of truth values, compared with truth values in a box. -/
def Ty.ExtendsTruth (p : Primitive) (t : Ty) : Prop :=
  p = .boolean ∧ t.isDeclared ∧ ∃ u, u.isBooleanLike ∧ Relation.ReflTransGen Ty.Extends t u

/-- What the type of a comparison is to the other operand, and what becomes of its value. -/
structure ComparedAs (p : Primitive) (t : Ty) (v : Value) (q : Ty) (c : Cast) : Prop where
  ne_string : q ≠ .string
  isPrimitive_eq : q.isPrimitive = t.unboxes p
  kept : (v.isNull → q.isPrimitive = false) → ¬TooLarge p t v →
    ∃ w, c.outcome v = .ok w ∧ w.isNull = v.isNull ∧ (q = .boxed .boolean → w.IsTruth)
  overflows : TooLarge p t v →
    c.outcome v = .error (.invalidConversion v.render NumericKind.bigDecimal.label)

section

variable (hO : Ty.Keyed O) (ht : O t) (hv : Assignable d v t)
  (h : Library.registry.implicitCast t (t.comparedAt p) = .ok (some c))

include hO ht hv h

theorem Cast.outcome_comparedAt (hnull : v.isNull → (t.comparedAt p).isPrimitive = false)
    (hlarge : ¬TooLarge p t v) : ∃ w, c.outcome v = .ok w ∧ w.isNull = v.isNull := by
  have hq := hO.builtin (Library.id?_of_mem_operandTypes (Library.comparedAt_mem_operandTypes p t))
  rcases outcome_cases hO ht hq h hnull with houtcome | ⟨number, hholds, houtcome⟩
  · exact ⟨v, houtcome, rfl⟩
  · obtain ⟨kind, given, hp, hnone | hgiven⟩ := Ty.held_of_comparedAt hholds
    · have hv : v = .null := by
        cases t with
        | null => exact hv.eq_null
        | _ => cases hnone
      exact ⟨.null, by rw [houtcome, hv]; rfl, by rw [hv]⟩
    · rw [Ty.eq_of_holds (Ty.numericKind?_comparedAt hp hgiven) hholds] at houtcome
      rcases hv.null_or_number hgiven with rfl | hnumber
      · exact ⟨.null, houtcome, rfl⟩
      · have hpresent := Value.isNull_of_numericKind? hnumber
        rcases Value.numberAs?_promote hp hnumber with hsome | ⟨hfloating, i, rfl, hnone⟩
        · obtain ⟨w, hw⟩ := Option.isSome_iff_exists.1 hsome
          refine ⟨w, ?_, ?_⟩
          · rw [houtcome, Value.convert, hpresent, hw]
            rfl
          · rw [hpresent, Value.isNull_of_numericKind? (Value.numericKind?_of_numberAs? hw)]
        · cases hnumber
          exact absurd ⟨kind, i, hp, hfloating, hgiven, rfl, hnone⟩ hlarge

theorem Cast.outcome_tooLarge (hlarge : TooLarge p t v) :
    c.outcome v = .error (.invalidConversion v.render NumericKind.bigDecimal.label) := by
  obtain ⟨kind, i, hp, hfloating, hgiven, rfl, hnone⟩ := hlarge
  have hq := hO.builtin (Library.id?_of_mem_operandTypes (Library.comparedAt_mem_operandTypes p t))
  have hdecimal : (t.comparedAt p).numericKind? = some .bigDecimal := by
    rw [Ty.numericKind?_comparedAt hp hgiven]
    cases kind <;> first | rfl | cases hfloating
  rw [outcome_widening hO ht hq h (fun hnull => by cases hnull) hgiven hdecimal (by decide)]
  have hnumber : Value.numberAs? (.bigInteger i) .bigDecimal = none := by
    rw [Value.numberAs?, Value.toDecimal?, hnone]
    rfl
  rw [Value.convert, hnumber]
  rfl

/-- Truth values are handed on. -/
theorem Cast.outcome_truth (hboolean : t.comparedAt p = .boxed .boolean) :
    c.outcome v = .ok v ∧ v.IsTruth := by
  constructor
  · rw [hboolean] at h
    rcases outcome_cases hO ht (hO.builtin rfl) h fun _ => rfl with houtcome | ⟨number, hholds, -⟩
    · exact houtcome
    · cases hholds
  · rcases Ty.truth_of_comparedAt hboolean with hnone | htruth
    · cases t with
      | null => exact .inl hv.eq_null
      | _ => cases hnone
    · cases t with
      | primitive r =>
        cases r with
        | boolean => exact .inr hv.exists_bool
        | _ => cases htruth
      | boxed r =>
        cases r with
        | boolean => exact hv.null_or_bool
        | _ => cases htruth
      | _ => cases htruth

theorem comparedAs_comparedAt : ComparedAs p t v (t.comparedAt p) c where
  ne_string := Ty.comparedAt_ne_string p t
  isPrimitive_eq := Ty.isPrimitive_comparedAt p t
  kept := by
    intro hnull hlarge
    obtain ⟨w, hw, hwnull⟩ := Cast.outcome_comparedAt hO ht hv h hnull hlarge
    refine ⟨w, hw, hwnull, fun hboolean => ?_⟩
    obtain ⟨hsame, htruth⟩ := Cast.outcome_truth hO ht hv h hboolean
    cases hw.symm.trans hsame
    exact htruth
  overflows := Cast.outcome_tooLarge hO ht hv h

end

namespace Library

/-- The casts of the library start at built-in types. -/
theorem builtin_of_mem_casts :
    ∀ entry ∈ casts.entries, entry.source.id? = some (.builtin entry.source.key) := by
  decide +kernel

/-- No box is compared as text, and only truth values in a box as truth values. -/
theorem boxed_converts_truth : ∀ p ∈ Primitive.all, ∀ q ∈ operandTypes,
    registry.Converts (.boxed p) q →
      q.key ≠ Ty.string.key ∧ (q.isBooleanLike → p = .boolean) := by
  decide +kernel

end Library

/-- Plain numbers are taken out of types that are not built in by written casts only. -/
theorem structuralCast_to_number {r : Primitive} (ht : t ∉ Ty.builtins)
    (hkey : t.key ≠ (Ty.primitive r).key) (hr : r.numeric?.isSome)
    (h : structuralCast t (.primitive r) = some c) : c.implicit = false := by
  obtain ⟨number, hnumber⟩ := Option.isSome_iff_exists.1 hr
  have hscalar : uncheckedUnboxing t r number = some c := by
    have hboolean : (Ty.primitive r).isBooleanLike = false := by
      cases r <;> first | rfl | cases hnumber
    cases t with
    | record | interface | collection | array =>
      simp only [structuralCast, if_neg hkey, scalarCast] at h
      simpa [Ty.isError, Ty.isVoid, Ty.isNull, Ty.isObject, booleanCast, numericCast, hboolean,
        Ty.numericKind?, Ty.primitive?, hnumber] using h
    | _ => exact absurd (Ty.mem_builtins rfl) ht
  unfold uncheckedUnboxing at hscalar
  split at hscalar
  · cases hscalar
    rfl
  · cases hscalar

/-- A type that is not built in is compared at the root or at a type that it extends. -/
theorem Ty.Keyed.goesUp_of_not_builtin (hO : Ty.Keyed O) (ht : O t) (hbuiltin : t ∉ Ty.builtins)
    (hq : q ∈ Library.operandTypes) (h : Library.registry.implicitCast t q = .ok (some c)) :
    c.kind = .upcast ∧ (q = .object ∨
      Relation.ReflTransGen Ty.Extends t q ∧ (q.isPrimitive → q = .boolean)) := by
  have hid := Library.id?_of_mem_operandTypes hq
  have hkey : t.key ≠ q.key := fun hkey =>
    hbuiltin (hO.eq_of_key ht (hO.builtin hid) hkey ▸ Ty.mem_builtins hid)
  have himplicit := Registry.implicit_of_implicitCast h
  rcases Registry.implicitCast_eq_some h with ⟨hsame, -⟩ | hcast
  · exact absurd hsame hkey
  rcases Library.registry_cast_cases hcast with hstructural | ⟨entry, hcalls⟩
  · have hkind := (structuralCast_structural hstructural).kind
    have hmarked := (structuralCast_marked hstructural).implicit_eq.symm.trans himplicit
    generalize c.kind = applied at hkind hmarked ⊢
    cases hkind with
    | identity hsame => exact absurd hsame hkey
    | object => exact ⟨rfl, .inl rfl⟩
    | up hancestor =>
      obtain ⟨levels, hlevels⟩ := Option.isSome_iff_exists.1 hancestor
      refine ⟨rfl, .inr ⟨hO.above ht (hO.builtin hid) hlevels, fun hprimitive => ?_⟩⟩
      cases q with
      | primitive r =>
        by_contra hne
        have hnumeric : r.numeric?.isSome := by
          cases r <;> first | rfl | exact absurd rfl hne
        rw [structuralCast_to_number hbuiltin hkey hnumeric hstructural] at himplicit
        cases himplicit
      | _ => cases hprimitive
    | widen hnumber =>
      have hvalued := Ty.isValued_of_heldKind? (Ty.heldKind?_of_numericKind? hnumber)
      exact absurd (Library.mem_builtins_of_isValued hvalued) hbuiltin
    | array => cases hid
    | narrow | unboxUnchecked | down => cases hmarked
    | _ => exact absurd (Ty.mem_builtins rfl) hbuiltin
  · -- Conversions of the library start at built-in types.
    have hsource := Library.builtin_of_mem_casts entry hcalls.mem
    rw [hO.eq_of_key (hO.builtin hsource) ht hcalls.source_key] at hsource
    exact absurd (Ty.mem_builtins hsource) hbuiltin

theorem Ty.unboxes_of_not_builtin (ht : t ∉ Ty.builtins) : t.unboxes p = false := by
  cases t with
  | wrapper => exact absurd (Ty.mem_builtins rfl) ht
  | _ => rfl

theorem TooLarge.mem_builtins (h : TooLarge p t v) : t ∈ Ty.builtins := by
  obtain ⟨kind, i, -, -, hheld, -, -⟩ := h
  exact Library.mem_builtins_of_isValued (Ty.isValued_of_heldKind? hheld)

/-- Up to the root, or along inheritance, a value is handed on as it is. -/
theorem comparedAs_of_not_builtin (hO : Ty.Keyed O) (ht : O t) (hbuiltin : t ∉ Ty.builtins)
    (htruth : ¬t.ExtendsTruth p) (hq : q ∈ Library.operandTypes)
    (hboxed : Library.registry.Converts (.boxed p) q)
    (h : Library.registry.implicitCast t q = .ok (some c)) : ComparedAs p t v q c := by
  have hqO := hO.builtin (Library.id?_of_mem_operandTypes hq)
  obtain ⟨hstring, hboolean⟩ :=
    Library.boxed_converts_truth p (by cases p <;> simp [Primitive.all]) q hq hboxed
  obtain ⟨hkind, hup⟩ := hO.goesUp_of_not_builtin ht hbuiltin hq h
  -- Going up to a boolean type would make the type one of truth values.
  have hplain : q.isBooleanLike = false := by
    by_contra hlike
    rw [Bool.not_eq_false] at hlike
    rcases hup with rfl | ⟨habove, -⟩
    · cases hlike
    · refine htruth ⟨hboolean hlike, ?_, q, hlike, habove⟩
      by_contra hdeclared
      rw [Bool.not_eq_true] at hdeclared
      rcases Ty.above_of_not_declared hdeclared habove with rfl | ⟨-, rfl⟩
      · exact hbuiltin (Ty.mem_builtins (Library.id?_of_mem_operandTypes hq))
      · cases hlike
  have hprimitive : q.isPrimitive = false := by
    by_contra hprimitive
    rw [Bool.not_eq_false] at hprimitive
    rcases hup with rfl | ⟨-, hprimitive'⟩
    · cases hprimitive
    · rw [hprimitive' hprimitive] at hplain
      cases hplain
  refine ⟨fun heq => hstring (congrArg Ty.key heq), ?_, fun hnull _ => ⟨v, ?_, rfl, fun heq => ?_⟩,
    fun hlarge => absurd hlarge.mem_builtins hbuiltin⟩
  · rw [hprimitive, Ty.unboxes_of_not_builtin hbuiltin]
  · rw [Cast.outcome_eq_apply hO ht hqO h hnull, hkind, CastKind.apply]
    rfl
  · rw [heq] at hplain
    cases hplain

/-! ## Evaluation -/

theorem evalAll_pair_eq_ok (h : evalAll [left, right] frames = (.ok [x, y], frames')) :
    ∃ frames₁, left.eval frames = (.ok x, frames₁) ∧ right.eval frames₁ = (.ok y, frames') := by
  simp only [evalAll] at h
  obtain ⟨x', frames₁, hleft, hrest⟩ := run_bind_eq_ok h
  obtain ⟨ys, frames₂, hrest, hpure⟩ := run_bind_eq_ok hrest
  obtain ⟨y', frames₃, hright, hnil⟩ := run_bind_eq_ok hrest
  obtain ⟨zs, frames₄, hnil, hcons⟩ := run_bind_eq_ok hnil
  cases hnil
  cases hcons
  cases hpure
  exact ⟨frames₁, hleft, hright⟩

/-- Both operands are evaluated and converted before a method runs on them. -/
theorem BoundNode.eval_call {m : Method} {e : Cast}
    (hshape : n.shape = .methodCall m none [left.wrap c, right.wrap e])
    (heval : evalAll [left, right] frames = (.ok [x, y], frames')) :
    (n.eval frames).1 = (do
      let x ← c.outcome x
      let y ← e.outcome y
      (m.invoke none [x, y] frames').1) := by
  obtain ⟨frames₁, hleft, hright⟩ := evalAll_pair_eq_ok heval
  obtain ⟨shape, type, span⟩ := n
  subst hshape
  simp only [eval, BoundShape.eval, evalAll, run_bind, wrap_eval c hleft]
  cases c.outcome x with
  | error error => rfl
  | ok x' =>
    dsimp only
    rw [wrap_eval e hright]
    cases e.outcome y with
    | error error => rfl
    | ok y' => rfl

theorem Value.equal_null_left (v : Value) : Value.null.equal v = v.isNull := by
  cases v <;> rfl

theorem Value.equal_null_right (v : Value) : v.equal .null = v.isNull := by
  cases v <;> rfl

namespace Comparison

theorem equal_eq_withNull (hnull : x.isNull ∨ y.isNull) :
    Value.bool (x.equal y) = eq.withNull x y ∧ Value.bool (!x.equal y) = ne.withNull x y := by
  have heq : x.equal y = (x.isNull && y.isNull) := by
    rcases hnull with hnull | hnull
    · cases x <;> cases hnull
      rw [Value.equal_null_left]
      rfl
    · cases y <;> cases hnull
      rw [Value.equal_null_right, Bool.and_comm]
      rfl
  rw [heq]
  cases hx : x.isNull <;> cases hy : y.isNull <;>
    simp_all [withNull, nullable, equalOrNull, ofUnknown]

theorem boolsOrNull_eq_withNull (hx : x.IsTruth) (hy : y.IsTruth) (hnull : x.isNull ∨ y.isNull) :
    op.boolsOrNull x y = .ok (op.withNull x y) := by
  rcases hx with rfl | ⟨a, rfl⟩ <;> rcases hy with rfl | ⟨b, rfl⟩
  · rfl
  · cases op <;> rfl
  · cases op <;> rfl
  · simp [Value.isNull] at hnull

/-- An overload for operands that may be null tells what is known without the value of the other
operand. -/
theorem overload_withNull {m : Method} (hm : Library.Overloads op q m) (hq : q.isPrimitive = false)
    (hstring : q ≠ .string) (hnull : x.isNull ∨ y.isNull)
    (htruth : q = .boxed .boolean → x.IsTruth ∧ y.IsTruth) (frames : Frames) :
    (m.invoke none [x, y] frames).1 = .ok (op.withNull x y) := by
  cases hm with
  | primitive => cases hq
  | strings => exact absurd rfl hstring
  | numbers =>
    rw [Library.binary, Library.operator, Method.invoke]
    exact if_pos (by simpa using hnull)
  | booleans =>
    obtain ⟨hx, hy⟩ := htruth rfl
    rw [Library.binary, Library.operator, Method.invoke]
    exact boolsOrNull_eq_withNull hx hy hnull
  | objects hmem hname =>
    obtain ⟨heq, hne⟩ := equal_eq_withNull hnull
    simp only [Library.objectComparisons, List.mem_cons, List.not_mem_nil, or_false] at hmem
    rcases hmem with rfl | rfl
    · have hop : eq = op := by
        revert hname
        cases op <;> decide
      subst hop
      rw [Library.binary, Library.operator, Method.invoke]
      exact congrArg Except.ok heq
    · have hop : ne = op := by
        revert hname
        cases op <;> decide
      subst hop
      rw [Library.binary, Library.operator, Method.invoke]
      exact congrArg Except.ok hne

end Comparison

/-- One of two operands has the box of `p` as its type and is null; the other one has the type `t`
and the value `v`. -/
inductive NullOperand (p : Primitive) (t : Ty) (v : Value) (left right : BoundNode) :
    Value → Value → Prop
  | left (hboxed : left.ty = .boxed p) (hother : right.ty = t) :
      NullOperand p t v left right .null v
  | right (hother : left.ty = t) (hboxed : right.ty = .boxed p) :
      NullOperand p t v left right v .null

theorem NullOperand.boxBeside (h : NullOperand p t v left right x y) :
    Ty.BoxBeside p t left.ty right.ty := by
  cases h with
  | left hboxed hother => exact .inl ⟨hboxed, hother⟩
  | right hother hboxed => exact .inr ⟨hother, hboxed⟩

section

variable (call : Library.ComparesAt op q left right n) (hnull : NullOperand p t v left right x y)

include call hnull

/-- The conversions of the two operands, and what the comparison does with them. -/
theorem Library.ComparesAt.conversions : ∃ fromNull fromOther,
    registry.implicitCast (.boxed p) q = .ok (some fromNull) ∧
      registry.implicitCast t q = .ok (some fromOther) ∧
      ((x = .null ∧ y = v ∧ call.fromLeft = fromNull ∧ call.fromRight = fromOther) ∨
        x = v ∧ y = .null ∧ call.fromLeft = fromOther ∧ call.fromRight = fromNull) := by
  have hleft := call.left_converts
  have hright := call.right_converts
  cases hnull with
  | left hboxed hother =>
    rw [hboxed] at hleft
    rw [hother] at hright
    exact ⟨_, _, hleft, hright, .inl ⟨rfl, rfl, rfl, rfl⟩⟩
  | right hother hboxed =>
    rw [hother] at hleft
    rw [hboxed] at hright
    exact ⟨_, _, hright, hleft, .inr ⟨rfl, rfl, rfl, rfl⟩⟩

variable (hO : Ty.Keyed O)
  (hcompared : ∀ c, Library.registry.implicitCast t q = .ok (some c) → ComparedAs p t v q c)
  (heval : evalAll [left, right] frames = (.ok [x, y], frames'))

include hO hcompared heval

/-- If the operands are compared as plain numbers, null is refused. -/
theorem Library.ComparesAt.refuses (ht : O t) (hunboxes : t.unboxes p) :
    (n.eval frames).1 = .error (.nullValue q.name) := by
  have hq := hO.builtin (id?_of_mem_operandTypes call.overload.mem)
  have hreference : t.isPrimitive = false := by cases t <;> first | rfl | cases hunboxes
  obtain ⟨fromNull, fromOther, hfromNull, hfromOther, horder⟩ := call.conversions hnull
  have hother := hcompared fromOther hfromOther
  have hprimitive : q.isPrimitive := by rw [hother.isPrimitive_eq, hunboxes]
  have hrefused := Cast.outcome_refused hO (hO.builtin rfl) hq hfromNull rfl hprimitive
  -- The other operand may be null as well; then it is refused in the same words.
  have hvalue : (∃ w, fromOther.outcome v = .ok w) ∨
      fromOther.outcome v = .error (.nullValue q.name) := by
    cases hpresent : v.isNull with
    | true =>
      have hvnull : v = .null := by cases v <;> first | rfl | cases hpresent
      exact .inr (hvnull ▸ Cast.outcome_refused hO ht hq hfromOther hreference hprimitive)
    | false =>
      have hsmall : ¬TooLarge p t v := by
        intro hlarge
        rw [hlarge.unboxes] at hunboxes
        cases hunboxes
      obtain ⟨w, hw, -⟩ := hother.kept (by simp [hpresent]) hsmall
      exact .inl ⟨w, hw⟩
  rw [BoundNode.eval_call call.shape_eq heval]
  rcases horder with ⟨rfl, rfl, hleft, hright⟩ | ⟨rfl, rfl, hleft, hright⟩
  · rw [hleft, hrefused]
    rfl
  · rw [hleft, hright]
    rcases hvalue with ⟨w, hvalue⟩ | hvalue
    · rw [hvalue, hrefused]
      rfl
    · rw [hvalue]
      rfl

/-- A number that is out of bounds for the comparison does not convert. -/
theorem Library.ComparesAt.overflows (hlarge : TooLarge p t v) :
    (n.eval frames).1 = .error (.invalidConversion v.render NumericKind.bigDecimal.label) := by
  have hq := hO.builtin (id?_of_mem_operandTypes call.overload.mem)
  obtain ⟨fromNull, fromOther, hfromNull, hfromOther, horder⟩ := call.conversions hnull
  have hother := hcompared fromOther hfromOther
  have hkept := Cast.outcome_null hO (hO.builtin rfl) hq hfromNull
    (hother.isPrimitive_eq.trans hlarge.unboxes)
  have hfails := hother.overflows hlarge
  rw [BoundNode.eval_call call.shape_eq heval]
  rcases horder with ⟨rfl, rfl, hleft, hright⟩ | ⟨rfl, rfl, hleft, hright⟩
  · rw [hleft, hright, hkept, hfails]
    rfl
  · rw [hleft, hfails]
    rfl

/-- Otherwise the comparison tells what is known. -/
theorem Library.ComparesAt.answers (hunboxes : t.unboxes p = false) (hlarge : ¬TooLarge p t v) :
    (n.eval frames).1 = .ok (op.withNull x y) := by
  have hq := hO.builtin (id?_of_mem_operandTypes call.overload.mem)
  obtain ⟨fromNull, fromOther, hfromNull, hfromOther, horder⟩ := call.conversions hnull
  have hother := hcompared fromOther hfromOther
  have hprimitive := hother.isPrimitive_eq.trans hunboxes
  have hkept := Cast.outcome_null hO (hO.builtin rfl) hq hfromNull hprimitive
  obtain ⟨w, hw, hwnull, htruth⟩ := hother.kept (fun _ => hprimitive) hlarge
  have hwithNull (x' y' : Value) (hx : x'.isNull = x.isNull) (hy : y'.isNull = y.isNull) :
      op.withNull x' y' = op.withNull x y := by
    simp only [Comparison.withNull, hx, hy]
  rw [BoundNode.eval_call call.shape_eq heval]
  rcases horder with ⟨rfl, rfl, hleft, hright⟩ | ⟨rfl, rfl, hleft, hright⟩
  · rw [hleft, hright, hkept, hw, ← hwithNull .null w rfl hwnull]
    exact Comparison.overload_withNull call.overload hprimitive hother.ne_string (.inl rfl)
      (fun hboolean => ⟨.inl rfl, htruth hboolean⟩) _
  · rw [hleft, hright, hw, hkept, ← hwithNull w .null hwnull rfl]
    exact Comparison.overload_withNull call.overload hprimitive hother.ne_string (.inr rfl)
      (fun hboolean => ⟨htruth hboolean, .inl rfl⟩) _

end

/-- A loose comparison of null in a boxed type with a value of any type, in either order, except
that truth values are not compared with a class below them.  Null is refused exactly if the two
types are a box of numbers and a wrapper over a primitive kind, which are not lifted.  Beside all
other types the comparison gives a truth value, or null if it is an ordering, unless the other value
is too large for the decimals in which it is compared. -/
theorem null_comparison_fails_iff_unboxes {config : Config} {s : BindState} {node : SyntaxNode}
    (hbinds : BindsComparison (.standard config) s node op left right n)
    (hO : Ty.Keyed O) (ht : O t) (htruth : ¬t.ExtendsTruth p)
    (heval : evalAll [left, right] frames = (.ok [x, y], frames'))
    (hnull : NullOperand p t v left right x y) (hv : Assignable d v t) :
    let answer := (n.eval frames).1
    ((∃ type, answer = .error (.nullValue type)) ↔ t.unboxes p) ∧
    (TooLarge p t v →
      answer = .error (.invalidConversion v.render NumericKind.bigDecimal.label)) ∧
    (t.unboxes p = false → ¬TooLarge p t v → ∃ known : Option Bool,
      answer = .ok (Comparison.ofUnknown known) ∧ (op.isEquality → known.isSome)) := by
  intro answer
  obtain ⟨q, ⟨call⟩, hq⟩ := hbinds.comparesAt rfl hnull.boxBeside
  obtain ⟨fromNull, -, hboxed, -⟩ := call.conversions hnull
  have hcompared (c : Cast) (hc : Library.registry.implicitCast t q = .ok (some c)) :
      ComparedAs p t v q c := by
    by_cases hbuiltin : t ∈ Ty.builtins
    · obtain rfl := hq hbuiltin
      exact comparedAs_comparedAt hO ht hv hc
    · exact comparedAs_of_not_builtin hO ht hbuiltin htruth call.overload.mem ⟨_, hboxed⟩ hc
  have hanswers := call.answers hnull hO hcompared heval
  refine ⟨⟨?_, fun h => ⟨_, call.refuses hnull hO hcompared heval ht h⟩⟩,
    call.overflows hnull hO hcompared heval, fun hunboxes hlarge => ?_⟩
  · rintro ⟨type, hrefused⟩
    by_contra hunboxes
    rw [Bool.not_eq_true] at hunboxes
    by_cases hlarge : TooLarge p t v
    · cases hrefused.symm.trans (call.overflows hnull hO hcompared heval hlarge)
    · cases hrefused.symm.trans (hanswers hunboxes hlarge)
  · exact ⟨_, hanswers hunboxes hlarge, fun h => Comparison.nullable_isSome h _ _⟩

/-- Nothing as an integer is neither less than five nor not. -/
theorem null_comparison_fails_iff_unboxes_five :
    let node := SyntaxNode.binary .less (nullAs "Integer") (.int 5)
    ∃ left right n,
      BindsComparison (.standard .standard) (typesOnly []) node .lt left right n ∧
      NullOperand .int (.primitive .int) (.int 5) left right .null (.int 5) ∧
      evalAll [left, right] (Frames.single 0) = (.ok [.null, .int 5], .single 0) ∧
      ∃ known, (n.eval (Frames.single 0)).1 = .ok (Comparison.ofUnknown known) := by
  intro node
  obtain ⟨left, right, s₁, hoperands, hleft, hright, heval⟩ : ∃ left right s₁,
      bindAll (childrenOf node.children) (.standard .standard)
          { typesOnly [] with depth := 1 } = (.ok [left, right], s₁) ∧
        left.ty = .boxed .int ∧ right.ty = .primitive .int ∧
        evalAll [left, right] (Frames.single 0) = (.ok [.null, .int 5], .single 0) :=
    ⟨_, _, _, rfl, rfl, rfl, rfl⟩
  have hbind : answersWith (bind node) (.standard .standard) (typesOnly [])
      (fun n _ => !n.isError) = true := by decide +kernel
  obtain ⟨n, s', hrun, hn⟩ := eq_ok_of_answersWith hbind
  have hbinds : BindsComparison (.standard .standard) (typesOnly []) node .lt left right n :=
    bindsComparison_of_bound rfl rfl rfl hoperands hrun (by simpa using hn)
  have hnull : NullOperand .int (.primitive .int) (.int 5) left right .null (.int 5) :=
    .left hleft hright
  have hsmall : ¬TooLarge .int (.primitive .int) (.int 5) := by
    rintro ⟨kind, i, -, -, -, hbig, -⟩
    cases hbig
  have htruth : ¬(Ty.primitive .int).ExtendsTruth .int := fun h => by cases h.1
  obtain ⟨-, -, hknown⟩ := null_comparison_fails_iff_unboxes hbinds
    Ty.plainlyExtended_builtins.toKeyed (Ty.over_builtin rfl) htruth heval hnull (d := .empty)
    (.number rfl rfl)
  obtain ⟨known, hknown, -⟩ := hknown rfl hsmall
  exact ⟨left, right, n, hbinds, hnull, heval, known, hknown⟩

/-- In a module without declarations, the tree binds to `n` without a report. -/
def SyntaxNode.BindsAlone (node : SyntaxNode) (n : BoundNode) : Prop :=
  ∃ s, bind node (.standard .standard) (typesOnly []) = (.ok n, s) ∧ s.diagnostics = []

theorem SyntaxNode.bindsAlone_of_answersWith (node : SyntaxNode) (test : BoundNode → Bool)
    (h : answersWith (bind node) (.standard .standard) (typesOnly [])
      (fun n s => s.diagnostics.isEmpty && test n) = true) : ∃ n, node.BindsAlone n ∧ test n := by
  obtain ⟨n, s, hrun, htest⟩ := eq_ok_of_answersWith h
  obtain ⟨hquiet, htest⟩ := Bool.and_eq_true_iff.1 htest
  exact ⟨n, ⟨s, hrun, List.isEmpty_iff.1 hquiet⟩, htest⟩

/-- Nothing as an integer is not equal to the wrapped number five: the comparison binds without a
report, its operands give null and five, and it fails. -/
theorem null_box_refused_beside_wrapper :
    let nothing := nullAs "Integer"
    let five := SyntaxNode.cast (.typeName "IntValue") (.int 5)
    (∃ left, nothing.BindsAlone left ∧ left.ty = .boxed .int ∧
      (left.eval (Frames.single 0)).1 = .ok .null) ∧
    (∃ right, five.BindsAlone right ∧ right.ty.wrapper? = some .int ∧
      (right.eval (Frames.single 0)).1.map (·.toInt?) = .ok (some 5)) ∧
    ∃ n, (SyntaxNode.binary .equal nothing five).BindsAlone n ∧ n.containsError = false ∧
      (n.eval (Frames.single 0)).1.map (·.isNull) = .error (.nullValue "int") := by
  intro nothing five
  refine ⟨⟨_, ⟨_, rfl, rfl⟩, rfl, rfl⟩, ?_, ?_⟩
  · obtain ⟨right, hright, htest⟩ := five.bindsAlone_of_answersWith
      (fun n => n.ty.wrapper? = some .int &&
        (n.eval (Frames.single 0)).1.map (·.toInt?) = .ok (some 5)) (by decide +kernel)
    simp only [Bool.and_eq_true, decide_eq_true_eq] at htest
    exact ⟨right, hright, htest⟩
  · obtain ⟨n, hn, htest⟩ := (SyntaxNode.binary .equal nothing five).bindsAlone_of_answersWith
      (fun n => !n.containsError &&
        (n.eval (Frames.single 0)).1.map (·.isNull) = .error (.nullValue "int")) (by decide +kernel)
    simp only [Bool.and_eq_true, Bool.not_eq_true', decide_eq_true_eq] at htest
    exact ⟨n, hn, htest⟩

end RuleExpr

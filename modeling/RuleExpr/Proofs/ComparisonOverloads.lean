import RuleExpr.Proofs.ConversionChains
import RuleExpr.Proofs.NearestOverload
import RuleExpr.Proofs.OwnMethods
import RuleExpr.Proofs.Soundness.Operators

/-!
# Overloads of a Comparison

All overloads of a comparison take both operands at one type.  `Ty.comparedAt` says which one is
called for an operand of a boxed type and one of another built-in type: a boxed type or a type of
unbounded numbers if the operands are lifted; for a wrapper, which is not lifted, the type of plain
numbers that both operands are nearest to; and otherwise the root, at which all values are equal or
not.  A type that is not built in is compared at the root or at a type that it extends.

The choice is the same in both orders of the operands.  Methods of the module take part in it, so
the statements are about calls that end up at an operator of the library.
-/

namespace RuleExpr

open BindM

variable {O : Ty → Prop} {op : Comparison} {p : Primitive} {t q a b : Ty} {m : Method}

namespace Library

/-- Types at which operands are compared. -/
def operandTypes : List Ty :=
  operatorKinds.map .ofNumericKind ++ Primitive.all.map .boxed ++ [.boolean, .string, .object]

/-- The overloads of a comparison, by the type of their operands. -/
inductive Overloads (op : Comparison) : Ty → Method → Prop
  | primitive {p : Primitive} {m : Method} (hmem : .primitive p ∈ operandTypes)
      (hparams : m.params = [.primitive p, .primitive p]) : Overloads op (.primitive p) m
  | numbers {t : Ty} {working : NumericKind} (hmem : t ∈ operandTypes) (ht : t.isReference)
      (hkind : t.numericKind?.isSome) :
      Overloads op t
        (binary op.methodName t t (nullableAnswer op) (op.numbersOrNull .loose working))
  | booleans :
      Overloads op (.boxed .boolean)
        (binary op.methodName (.boxed .boolean) (.boxed .boolean) (nullableAnswer op)
          op.boolsOrNull)
  | strings :
      Overloads op .string (binary op.methodName .string .string (nullableAnswer op) op.strings)
  | objects {m : Method} (hmem : m ∈ objectComparisons) (hname : m.name = op.methodName) :
      Overloads op .object m

theorem nameIn_eq_methodName {op' : Comparison} {mode : Comparison.Mode}
    (h : op'.nameIn mode = op.methodName) : op' = op ∧ mode = .loose := by
  revert h
  cases op' <;> cases mode <;> cases op <;> decide

theorem comparisonsOf_overloads {kind : NumericKind} (hkind : kind ∈ operatorKinds)
    (h : m ∈ comparisonsOf kind) (hname : m.name = op.methodName) : ∃ t, Overloads op t m := by
  have hmem : Ty.ofNumericKind kind ∈ operandTypes :=
    List.mem_append_left _ (List.mem_append_left _ (List.mem_map_of_mem hkind))
  obtain ⟨op', -, h⟩ := List.mem_flatMap.1 h
  obtain ⟨mode, -, rfl⟩ := List.mem_map.1 h
  split at hname
  case isTrue hreference =>
    obtain ⟨rfl, rfl⟩ := nameIn_eq_methodName hname
    rw [if_pos hreference]
    exact ⟨_, .numbers hmem hreference (by rw [numericKind?_ofNumericKind]; rfl)⟩
  case isFalse hprimitive =>
    rw [if_neg hprimitive]
    cases kind with
    | bigInteger | bigDecimal => exact absurd rfl hprimitive
    | _ => exact ⟨_, .primitive hmem rfl⟩

theorem boxedComparisonsOf_overloads (h : m ∈ boxedComparisonsOf p)
    (hname : m.name = op.methodName) : ∃ t, Overloads op t m := by
  unfold boxedComparisonsOf at h
  split at h
  · cases h
  case h_2 kind hkind =>
    obtain ⟨op', -, rfl⟩ := List.mem_map.1 h
    have hloose : op'.nameIn .loose = op.methodName := hname
    obtain ⟨rfl, -⟩ := nameIn_eq_methodName hloose
    have hmem : Ty.boxed p ∈ operandTypes := by cases p <;> simp [operandTypes, Primitive.all]
    exact ⟨_, .numbers hmem rfl (by rw [Ty.numericKind?, hkind]; rfl)⟩

theorem otherComparisons_overloads {op' : Comparison} (h : m ∈ otherComparisons op')
    (hname : m.name = op.methodName) : ∃ t, Overloads op t m := by
  simp only [otherComparisons, List.mem_cons, List.not_mem_nil, or_false] at h
  have hloose : m.name = op'.nameIn .loose := by rcases h with rfl | rfl | rfl <;> rfl
  obtain ⟨rfl, -⟩ := nameIn_eq_methodName (hloose.symm.trans hname)
  rcases h with rfl | rfl | rfl
  · exact ⟨_, .primitive (p := .boolean) (by simp [operandTypes]) rfl⟩
  · exact ⟨_, .booleans⟩
  · exact ⟨_, .strings⟩

/-- Operators that are not comparisons have other names. -/
theorem not_comparison_names : ∀ op ∈ Comparison.all,
    ∀ m ∈ operatorKinds.flatMap arithmeticOf ++ MetaKind.all.flatMap wrapperArithmeticOf ++
      logicAndText, m.name ≠ op.methodName := by
  decide +kernel

theorem overloads_of_mem (h : m ∈ operatorsNamed op.methodName) : ∃ t, Overloads op t m := by
  rw [operatorsNamed, List.mem_filter, decide_eq_true_iff] at h
  obtain ⟨hmem, hname⟩ := h
  have hother := not_comparison_names op (by cases op <;> simp [Comparison.all]) m
  simp only [operators, List.mem_append, List.mem_flatMap] at hmem hother
  rcases hmem with (((((h | h) | ⟨kind, hkind, h⟩) | ⟨p, -, h⟩) | ⟨op', -, h⟩) | h) | h
  · exact absurd hname (hother (.inl (.inl h)))
  · exact absurd hname (hother (.inl (.inr h)))
  · exact comparisonsOf_overloads hkind h hname
  · exact boxedComparisonsOf_overloads h hname
  · exact otherComparisons_overloads h hname
  · exact ⟨_, .objects h hname⟩
  · exact absurd hname (hother (.inr h))

theorem Overloads.mem (h : Overloads op t m) : t ∈ operandTypes := by
  cases h with
  | primitive hmem | numbers hmem => exact hmem
  | booleans | strings | objects => simp [operandTypes, Primitive.all]

theorem Overloads.params (h : Overloads op t m) : m.params = [t, t] := by
  cases h with
  | primitive _ hparams => exact hparams
  | numbers | booleans | strings => rfl
  | objects hmem =>
    simp only [objectComparisons, List.mem_cons, List.not_mem_nil, or_false] at hmem
    rcases hmem with rfl | rfl <;> rfl

end Library

namespace Ty

/-- Types that are lifted together with a boxed type. -/
def liftsWith (p : Primitive) (t : Ty) : Bool :=
  t.isNull || if p = .boolean then t.isBooleanLike else t.numericKind?.isSome

/-- Type at which an operand of a boxed type is compared with one of another type. -/
def comparedAt (p : Primitive) (t : Ty) : Ty :=
  match p.numeric? with
  | none => if t.isNull || t.isBooleanLike then boxed .boolean else object
  | some kind =>
    if t.isNull then (ofNumericKind (kind.promote kind)).box
    else
      match t.heldKind? with
      | some given =>
        if t.wrapper?.isSome then ofNumericKind (kind.promote given)
        else (ofNumericKind (kind.promote given)).box
      | none => object

/-- Operands are compared as truth values, as any values, or as numbers of a promoted kind. -/
theorem comparedAt_cases (p : Primitive) (t : Ty) :
    (t.isNull ∨ t.isBooleanLike) ∧ t.comparedAt p = boxed .boolean ∨
      t.comparedAt p = object ∨
      ∃ kind given, p.numeric? = some kind ∧ (t.isNull ∨ t.heldKind? = some given) ∧
        (t.comparedAt p = ofNumericKind (kind.promote given) ∨
          t.comparedAt p = (ofNumericKind (kind.promote given)).box) := by
  unfold comparedAt
  split
  · split
    case isTrue htruth => exact .inl ⟨by simpa using htruth, rfl⟩
    case isFalse => exact .inr (.inl rfl)
  case h_2 kind hp =>
    split
    case isTrue hnull => exact .inr (.inr ⟨kind, kind, hp, .inl hnull, .inr rfl⟩)
    case isFalse =>
      split
      case h_1 given hgiven =>
        refine .inr (.inr ⟨kind, given, hp, .inr hgiven, ?_⟩)
        split
        · exact .inl rfl
        · exact .inr rfl
      case h_2 => exact .inr (.inl rfl)

/-- One of the types `a` and `b` is the box of `p`, and the other one is `t`. -/
def BoxBeside (p : Primitive) (t a b : Ty) : Prop := a = boxed p ∧ b = t ∨ a = t ∧ b = boxed p

/-- What holds in both orders of the two types. -/
theorem BoxBeside.of_both {P : Ty → Ty → Prop} (h : BoxBeside p t a b)
    (hboth : P (boxed p) t ∧ P t (boxed p)) : P a b := by
  rcases h with ⟨rfl, rfl⟩ | ⟨rfl, rfl⟩
  · exact hboth.1
  · exact hboth.2

theorem liftedType?_of_liftsWith (h : BoxBeside p t a b) (hlifts : t.liftsWith p) :
    liftedType? [a, b] = some (comparedAt p t) := by
  apply h.of_both
  cases t with
  | primitive r | boxed r => cases p <;> cases r <;> first | exact ⟨rfl, rfl⟩ | cases hlifts
  | _ => cases p <;> first | exact ⟨rfl, rfl⟩ | cases hlifts

theorem liftedType?_of_not_liftsWith (h : BoxBeside p t a b) (hlifts : t.liftsWith p = false) :
    liftedType? [a, b] = none := by
  apply h.of_both
  cases t with
  | primitive r | boxed r => cases p <;> cases r <;> first | exact ⟨rfl, rfl⟩ | cases hlifts
  | _ => cases p <;> first | exact ⟨rfl, rfl⟩ | cases hlifts

theorem isValued_comparedAt (h : t.liftsWith p) : (t.comparedAt p).isValued := by
  cases t with
  | primitive r | boxed r => cases p <;> cases r <;> first | rfl | cases h
  | _ => cases p <;> first | rfl | cases h

end Ty

/-- Cost of converting two operands to one type. -/
def Registry.total? (r : Registry) (a b t : Ty) : Option ℕ := do
  return (← r.distance? a t) + (← r.distance? b t)

namespace Overload

variable {r : Registry} {candidates : List Method} {name : String} {arguments : List Ty}
  {q' : Ty} {s : Selection} {c d : Cast}

/-- What is found is applicable, and no other candidate is nearer. -/
theorem nearest_of_found (hr : r.Answers)
    (h : resolve r candidates name arguments = .ok (.found s)) :
    (s.method ∈ candidates ∧ Applicable r name arguments s) ∧
      ∀ s', s'.method ∈ candidates → Applicable r name arguments s' →
        s.distance ≤ s'.distance := by
  rw [resolve_eq_outcome hr, Except.ok.injEq, outcome_eq_found_iff] at h
  have hleast : s ∈ least (selections r candidates name arguments) := by
    rw [h]
    exact List.mem_singleton_self s
  obtain ⟨hs, hle⟩ := mem_least_iff.1 hleast
  exact ⟨mem_selections_iff.1 hs, fun s' hmem happlicable =>
    hle s' (mem_selections_iff.2 ⟨hmem, happlicable⟩)⟩

/-- A method that takes two operands at one type is applicable if both convert to it. -/
theorem applicable_of_pair (hname : m.name = name) (hparams : m.params = [q, q])
    (hc : r.implicitCast a q = .ok (some c)) (hd : r.implicitCast b q = .ok (some d)) :
    Applicable r name [a, b]
      ⟨m, [c, d], min (c.distance + d.distance) (Distance.limit - 1)⟩ where
  name_eq := hname
  arity_eq := by
    have hlength : m.params.length = 2 := by rw [hparams, List.length_cons, List.length_singleton]
    exact hlength
  converts := by
    rw [hparams]
    exact .cons hc (.cons hd .nil)
  distance_eq := rfl

/-- The casts for two operands. -/
theorem Applicable.pair (h : Applicable r name [a, b] s) (hparams : s.method.params = [q, q]) :
    ∃ c d, s.casts = [c, d] ∧ r.implicitCast a q = .ok (some c) ∧
      r.implicitCast b q = .ok (some d) ∧
      s.distance = min (c.distance + d.distance) (Distance.limit - 1) := by
  have hconverts := h.converts
  have hdistance := h.distance_eq
  rw [hparams] at hconverts
  generalize s.casts = casts at hconverts hdistance
  cases hconverts with
  | cons hc hrest =>
    cases hrest with
    | cons hd hnil =>
      cases hnil
      exact ⟨_, _, rfl, hc, hd, hdistance⟩

/-- No operand type costs less than the one of the overload that is found. -/
theorem total_le_of_found (hr : r.Answers)
    (h : resolve r candidates name [a, b] = .ok (.found s)) (hparams : s.method.params = [q, q])
    (hmem : m ∈ candidates) (hname : m.name = name) (hparams' : m.params = [q', q'])
    {total total' : ℕ} (htotal : r.total? a b q = some total)
    (htotal' : r.total? a b q' = some total') (hwidth : total' < Distance.limit - 1) :
    total ≤ total' := by
  have hdistances {u : Ty} {x : ℕ} (hx : r.total? a b u = some x) {c d : Cast}
      (hc : r.implicitCast a u = .ok (some c)) (hd : r.implicitCast b u = .ok (some d)) :
      x = c.distance + d.distance := by
    rw [Registry.total?, Registry.distance?_eq hc, Registry.distance?_eq hd] at hx
    exact (Option.some.inj hx).symm
  obtain ⟨⟨-, happlicable⟩, hle⟩ := nearest_of_found hr h
  obtain ⟨c, d, -, hc, hd, hdistance⟩ := happlicable.pair hparams
  obtain ⟨c', d', hc', hd'⟩ : ∃ c' d', r.implicitCast a q' = .ok (some c') ∧
      r.implicitCast b q' = .ok (some d') := by
    obtain ⟨x, hx, hrest⟩ := Option.bind_eq_some_iff.1 htotal'
    obtain ⟨y, hy, -⟩ := Option.bind_eq_some_iff.1 hrest
    obtain ⟨c', hc'⟩ := Registry.isSome_distance?_iff.1 (Option.isSome_of_mem hx)
    obtain ⟨d', hd'⟩ := Registry.isSome_distance?_iff.1 (Option.isSome_of_mem hy)
    exact ⟨c', d', hc', hd'⟩
  have hnearest : s.distance ≤ min (c'.distance + d'.distance) (Distance.limit - 1) :=
    hle _ hmem (applicable_of_pair hname hparams' hc' hd')
  rw [hdistance, ← hdistances htotal hc hd, ← hdistances htotal' hc' hd'] at hnearest
  omega

end Overload

/-! ## The choice -/

theorem Registry.total?_comm (r : Registry) (a b t : Ty) : r.total? a b t = r.total? b a t := by
  rw [total?, total?]
  cases r.distance? a t with
  | none => cases r.distance? b t <;> rfl
  | some x =>
    cases r.distance? b t with
    | none => rfl
    | some y => exact congrArg some (Nat.add_comm x y)

namespace Library

theorem boxed_mem_operandTypes (p : Primitive) : Ty.boxed p ∈ operandTypes := by
  cases p <;> simp [operandTypes, Primitive.all]

theorem promoted_mem_operandTypes (kind other : NumericKind) :
    Ty.ofNumericKind (kind.promote other) ∈ operandTypes :=
  List.mem_append_left _ (List.mem_append_left _
    (List.mem_map_of_mem (mem_operatorKinds_promote kind other)))

theorem box_mem_operandTypes (h : t ∈ operandTypes) : t.box ∈ operandTypes := by
  cases t with
  | primitive p => exact boxed_mem_operandTypes p
  | _ => exact h

theorem comparedAt_mem_operandTypes (p : Primitive) (t : Ty) :
    t.comparedAt p ∈ operandTypes := by
  rcases t.comparedAt_cases p with ⟨-, h⟩ | h | ⟨kind, given, -, -, h | h⟩ <;> rw [h]
  · exact boxed_mem_operandTypes _
  · simp [operandTypes]
  · exact promoted_mem_operandTypes _ _
  · exact box_mem_operandTypes (promoted_mem_operandTypes _ _)

theorem isValued_of_mem_operandTypes (h : t ∈ operandTypes) :
    t.isValued ∨ t = .string ∨ t = .object := by
  cases t with
  | primitive p | boxed p => exact .inl (by cases p <;> rfl)
  | bigInteger | bigDecimal | wrapper => exact .inl rfl
  | string => exact .inr (.inl rfl)
  | object => exact .inr (.inr rfl)
  | _ => simp [operandTypes, operatorKinds, Ty.ofNumericKind, Primitive.all] at h

theorem id?_of_mem_operandTypes (h : t ∈ operandTypes) : t.id? = some (.builtin t.key) := by
  apply Ty.id?_of_mem_builtins
  rcases isValued_of_mem_operandTypes h with hvalued | rfl | rfl
  · exact mem_builtins_of_isValued hvalued
  · simp [Ty.builtins, Ty.named]
  · simp [Ty.builtins, Ty.named]

theorem mem_builtins_of_liftsWith (h : t.liftsWith p) : t ∈ Ty.builtins := by
  rw [Ty.liftsWith, Bool.or_eq_true] at h
  cases t with
  | null => simp [Ty.builtins]
  | primitive | boxed | bigInteger | bigDecimal => exact Ty.mem_builtins rfl
  | _ => cases p <;> simp [Ty.isNull, Ty.isBooleanLike, Ty.numericKind?] at h

/-- Lifted operands convert to the type that they are lifted to. -/
theorem lifted_converts : ∀ p ∈ Primitive.all, ∀ t ∈ Ty.builtins, t.liftsWith p →
    registry.Converts (.boxed p) (.comparedAt p t) ∧ registry.Converts t (.comparedAt p t) := by
  decide +kernel

theorem converts_of_liftsWith (h : Ty.BoxBeside p t a b) (hlifts : t.liftsWith p) :
    registry.Converts a (t.comparedAt p) ∧ registry.Converts b (t.comparedAt p) := by
  obtain ⟨hboxed, hother⟩ := lifted_converts p (by cases p <;> simp [Primitive.all]) t
    (mem_builtins_of_liftsWith hlifts) hlifts
  rcases h with ⟨rfl, rfl⟩ | ⟨rfl, rfl⟩
  · exact ⟨hboxed, hother⟩
  · exact ⟨hother, hboxed⟩

/-- Of all operand types, a box and a wrapper are nearest to the plain numbers of the kind that
they are promoted to. -/
theorem promoted_nearest : ∀ p ∈ Primitive.all, ∀ quantity ∈ MetaKind.all, p.numeric?.isSome →
    ∃ total ∈ registry.total? (.boxed p) (.wrapper quantity) (.comparedAt p (.wrapper quantity)),
      total < Distance.toObject ∧ ∀ q ∈ operandTypes,
        q.key ≠ (Ty.comparedAt p (.wrapper quantity)).key →
        ∀ total' ∈ registry.total? (.boxed p) (.wrapper quantity) q, total < total' := by
  decide +kernel

theorem nodup_operandTypes_keys : (operandTypes.map Ty.key).Nodup := by
  decide +kernel

theorem eq_of_mem_operandTypes (ht : t ∈ operandTypes) (hq : q ∈ operandTypes)
    (hkey : t.key = q.key) : t = q :=
  List.inj_on_of_nodup_map nodup_operandTypes_keys ht hq hkey

theorem valued_overload_keys : ∀ op ∈ Comparison.all, ∀ q ∈ operandTypes, q.isValued →
    ∃ m ∈ operatorsNamed op.methodName, m.params.map Ty.key = [q.key, q.key] := by
  decide +kernel

/-- Every comparison has an overload for each type that converts by its values. -/
theorem exists_overload (op : Comparison) (hq : q ∈ operandTypes) (hvalued : q.isValued) :
    ∃ m ∈ operatorsNamed op.methodName, Overloads op q m := by
  obtain ⟨m, hm, hkeys⟩ :=
    valued_overload_keys op (by cases op <;> simp [Comparison.all]) q hq hvalued
  obtain ⟨t, ht⟩ := overloads_of_mem hm
  rw [ht.params] at hkeys
  obtain rfl := eq_of_mem_operandTypes ht.mem hq (List.cons.inj hkeys).1
  exact ⟨m, hm, ht⟩

end Library

/-- Nothing stands above a built-in type but the class of numbers. -/
theorem Ty.plainlyExtended_builtins : Ty.PlainlyExtended (Ty.Over []) where
  toClosed := over_closed (List.forall_mem_nil _)
  eq_of_key := Over.eq_of_key (by decide +kernel)
  super_plain := by
    intro t u ht hu
    rcases isDeclared_or_number_of_super hu with hdeclared | rfl
    · have hmem : t ∈ [] := by
        cases t with
        | record | interface => exact ht.mem_own rfl fun hid => by cases hid
        | _ => cases hdeclared
      cases hmem
    · rfl

/-- What precedes a type that converts by its values holds such values as well, or is null. -/
theorem Ty.PlainlyExtended.valued_of_precedes (hO : Ty.PlainlyExtended O) (ht : O t)
    (hq : q.isValued) (h : t.Precedes q) :
    t.isNull ∨ t.heldKind?.isSome ∧ q.heldKind?.isSome ∨ t.isBooleanLike ∧ q.isBooleanLike := by
  cases h with
  | rises h =>
    rcases hO.below_of_isValued ht hq h with rfl | rfl
    · rw [isValued, Bool.or_eq_true] at hq
      exact .inr (hq.imp (fun h => ⟨h, h⟩) fun h => ⟨h, h⟩)
    · exact .inl rfl
  | null => exact .inl rfl
  | root | number => cases hq
  | numbers hkind hwider =>
    exact .inr (.inl ⟨Option.isSome_of_mem hkind, Option.isSome_of_mem hwider⟩)
  | booleans hboolean hboolean' => exact .inr (.inr ⟨hboolean, hboolean'⟩)

/-- A type that is compared with a box, lifted or as a wrapper, if both hold numbers. -/
theorem Ty.liftsWith_or_wrapper (hp : p.numeric?.isSome) (ht : t.heldKind?.isSome) :
    t.liftsWith p ∨ t.wrapper?.isSome := by
  have hne : p ≠ .boolean := by
    rintro rfl
    cases hp
  cases t with
  | wrapper => exact .inr rfl
  | _ =>
    refine .inl ?_
    rw [liftsWith, if_neg hne, Bool.or_eq_true]
    exact .inr ht

/-- Operands that are neither lifted nor a box and a wrapper of numbers have only the root in
common. -/
theorem Ty.PlainlyExtended.eq_object_of_converts (hO : Ty.PlainlyExtended O) (ht : O t)
    (hlift : t.liftsWith p = false) (hwrapper : p.numeric?.isSome → t.wrapper? = none)
    (hq : q ∈ Library.operandTypes) (hp : Library.registry.Converts (.boxed p) q)
    (htq : Library.registry.Converts t q) : q = .object := by
  have hOq := hO.builtin (Library.id?_of_mem_operandTypes hq)
  have hp := ((hO.converts_iff (hO.builtin rfl) hOq).1 hp).1
  have htq := ((hO.converts_iff ht hOq).1 htq).1
  rcases Library.isValued_of_mem_operandTypes hq with hvalued | rfl | rfl
  · -- Operands that share a type of values are lifted, or are a box and a wrapper.
    exfalso
    have hnull : t.isNull = false := by
      rw [liftsWith, Bool.or_eq_false_iff] at hlift
      exact hlift.1
    rcases hO.valued_of_precedes (hO.builtin rfl) hvalued hp with
      h | ⟨hnumeric, hheld⟩ | ⟨h, hboolean⟩
    · cases h
    · rcases hO.valued_of_precedes ht hvalued htq with h | ⟨h, -⟩ | ⟨-, h⟩
      · simp [hnull] at h
      · rcases liftsWith_or_wrapper hnumeric h with h | h
        · simp [hlift] at h
        · simp [hwrapper hnumeric] at h
      · simp [heldKind?_of_isBooleanLike h] at hheld
    · have hp : p = .boolean := by cases p <;> first | rfl | cases h
      rcases hO.valued_of_precedes ht hvalued htq with h | ⟨-, h⟩ | ⟨h, -⟩
      · simp [hnull] at h
      · simp [heldKind?_of_isBooleanLike hboolean] at h
      · simp [liftsWith, hp, h] at hlift
  · exfalso
    cases hp with
    | rises h =>
      rcases h.of_isValued (by cases p <;> rfl) with h | ⟨-, h⟩ | h <;> cases h
    | numbers _ h | booleans _ h => cases h
  · rfl

/-- What operands are compared at that are not lifted together. -/
theorem Ty.comparedAt_of_not_liftsWith (hlift : t.liftsWith p = false) :
    (∃ quantity, t = .wrapper quantity ∧ p.numeric?.isSome) ∨
      (p.numeric?.isSome → t.wrapper? = none) ∧ t.comparedAt p = .object := by
  cases t with
  | wrapper quantity =>
    cases p with
    | boolean => exact .inr ⟨fun h => (Bool.false_ne_true h).elim, rfl⟩
    | _ => exact .inl ⟨quantity, rfl, rfl⟩
  | primitive r | boxed r =>
    cases p <;> cases r <;> first | exact .inr ⟨fun _ => rfl, rfl⟩ | cases hlift
  | _ => cases p <;> first | exact .inr ⟨fun _ => rfl, rfl⟩ | cases hlift

section

variable {candidates : List Method} {s : Selection} (hpair : Ty.BoxBeside p t a b)
  (hlibrary : ∀ m ∈ Library.operatorsNamed op.methodName, m ∈ candidates)
  (hfound : Overload.resolve Library.registry candidates op.methodName [a, b] = .ok (.found s))
  (hq : Library.Overloads op q s.method)

include hpair hfound hq

theorem Library.Overloads.converts_of_found :
    registry.Converts (.boxed p) q ∧ registry.Converts t q := by
  have happlicable := (Overload.nearest_of_found registry_answers hfound).1.2
  obtain ⟨c, d, -, hc, hd, -⟩ := happlicable.pair hq.params
  rcases hpair with ⟨rfl, rfl⟩ | ⟨rfl, rfl⟩
  · exact ⟨⟨c, hc⟩, d, hd⟩
  · exact ⟨⟨d, hd⟩, c, hc⟩

include hlibrary

theorem Library.Overloads.total_le_of_found {u : Ty} (hu : u ∈ operandTypes)
    (hvalued : u.isValued) {total total' : ℕ} (htotal : registry.total? (.boxed p) t q = some total)
    (htotal' : registry.total? (.boxed p) t u = some total')
    (hwidth : total' < Distance.limit - 1) : total ≤ total' := by
  obtain ⟨m, hm, hoverload⟩ := exists_overload op hu hvalued
  have hname : m.name = op.methodName := of_decide_eq_true (List.mem_filter.1 hm).2
  rcases hpair with ⟨rfl, rfl⟩ | ⟨rfl, rfl⟩
  · exact Overload.total_le_of_found registry_answers hfound hq.params (hlibrary m hm)
      hname hoverload.params htotal htotal' hwidth
  · rw [Registry.total?_comm] at htotal htotal'
    exact Overload.total_le_of_found registry_answers hfound hq.params (hlibrary m hm)
      hname hoverload.params htotal htotal' hwidth

/-- A box and a wrapper of numbers are compared as the numbers they are promoted to. -/
theorem Library.Overloads.eq_promoted {quantity : MetaKind} (ht : t = .wrapper quantity)
    (hp : p.numeric?.isSome) : q = t.comparedAt p := by
  subst ht
  have hpromoted := comparedAt_mem_operandTypes p (.wrapper quantity)
  obtain ⟨total, htotal, hlt, hnearest⟩ := promoted_nearest p (by cases p <;> simp [Primitive.all])
    quantity (by cases quantity <;> simp [MetaKind.all]) hp
  obtain ⟨⟨c, hc⟩, d, hd⟩ := hq.converts_of_found hpair hfound
  have hfoundTotal : registry.total? (.boxed p) (.wrapper quantity) q =
      some (c.distance + d.distance) := by
    rw [Registry.total?, Registry.distance?_eq hc, Registry.distance?_eq hd]
    rfl
  -- Any other operand type is farther, but an overload for the promoted type was there to find.
  by_contra hne
  have hfarther := hnearest q hq.mem
    (fun hkey => hne (eq_of_mem_operandTypes hq.mem hpromoted hkey)) _ hfoundTotal
  have hvalued : (Ty.comparedAt p (.wrapper quantity)).isValued := by
    cases p <;> cases quantity <;> first | rfl | cases hp
  have hnearer := hq.total_le_of_found hpair hlibrary hfound hpromoted hvalued hfoundTotal htotal
    (Nat.lt_trans hlt (by decide))
  omega

/-- The overload that is found for operands that are not lifted. -/
theorem Ty.PlainlyExtended.operandType_of_found (hO : Ty.PlainlyExtended O) (ht : O t)
    (hlift : t.liftsWith p = false) : q = t.comparedAt p := by
  rcases t.comparedAt_of_not_liftsWith hlift with ⟨quantity, hquantity, hp⟩ | ⟨hwrapper, hobject⟩
  · exact hq.eq_promoted hpair hlibrary hfound hquantity hp
  · obtain ⟨hboxed, hother⟩ := hq.converts_of_found hpair hfound
    rw [hobject]
    exact hO.eq_object_of_converts ht hlift hwrapper hq.mem hboxed hother

end

/-- The call of an overload of a comparison for operands of type `t`, to which both operands are
converted. -/
structure Library.ComparesAt (op : Comparison) (t : Ty) (left right n : BoundNode) where
  method : Method
  overload : Overloads op t method
  fromLeft : Cast
  fromRight : Cast
  left_converts : registry.implicitCast left.ty t = .ok (some fromLeft)
  right_converts : registry.implicitCast right.ty t = .ok (some fromRight)
  shape_eq : n.shape = .methodCall method none [left.wrap fromLeft, right.wrap fromRight]

variable {σ : BindSettings} {s s' : BindState} {left right n : BoundNode} {symbol : String}
  {span : Span}

theorem castsTo_of_converts {operands : List BoundNode} {casts : List Cast} {u : Ty}
    (h : List.Forall₂ (fun b cast => σ.registry.implicitCast b.ty u = .ok (some cast))
      operands casts) : castsTo u operands σ s = (.ok (some casts), s) := by
  induction h with
  | nil => rfl
  | cons hcast _ ih =>
    rw [castsTo, run_bind_of_ok (implicitCast_eq_ok.2 ⟨hcast, rfl⟩)]
    exact run_bind_of_ok ih

theorem wrap_key {b : BoundNode} {c : Cast} {u : Ty}
    (h : Library.registry.implicitCast b.ty u = .ok (some c)) : (b.wrap c).ty.key = u.key := by
  rcases Registry.implicitCast_eq_some h with ⟨hkey, rfl⟩ | hcast
  · exact hkey
  · unfold BoundNode.wrap
    split
    case isTrue hidentity => exact Library.registry_faithful hcast hidentity
    case isFalse => exact (Registry.cast_endpoints hcast).2

/-- A selected operator of the library is called with its operands converted. -/
theorem buildCall_operator {selection : Selection} {operands arguments : List BoundNode}
    (hrun : buildCall selection none operands span σ s = (.ok n, s'))
    (hshape : n.shape = .methodCall m none arguments) :
    selection.method = m ∧
      (operands.zip selection.casts).map (fun (operand, cast) => operand.wrap cast) =
        arguments := by
  obtain ⟨u, s₁, -, hrest⟩ := bind_eq_ok.1 hrun
  obtain ⟨rfl, -⟩ := pure_eq_ok.1 hrest
  dsimp only at hshape
  split at hshape
  · cases hshape
  · obtain ⟨hmethod, -, harguments⟩ := BoundShape.methodCall.inj hshape
    exact ⟨hmethod, harguments⟩

/-- Operands of one operand type are compared at it, as they are. -/
theorem Library.Overloads.exact_of_found {candidates : List Method} {types : List Ty} {u : Ty}
    {selection : Selection} (hu : u ∈ operandTypes) (hvalued : u.isValued)
    (hkeys : types.map Ty.key = [u.key, u.key])
    (hlibrary : ∀ m ∈ operatorsNamed op.methodName, m ∈ candidates)
    (hfound : Overload.resolve registry candidates op.methodName types = .ok (.found selection))
    (hq : Overloads op q selection.method) :
    q = u ∧ selection.casts = types.map Cast.identity := by
  obtain ⟨m, hm, hoverload⟩ := exists_overload op hu hvalued
  have hexact : m ∈ Overload.exactMatches candidates op.methodName types := by
    refine List.mem_filter.2 ⟨hlibrary m hm, decide_eq_true ?_⟩
    have hname : m.name = op.methodName := of_decide_eq_true (List.mem_filter.1 hm).2
    change MethodKey.mk m.name (m.params.map Ty.key) = _
    rw [hname, hoverload.params, hkeys]
    rfl
  cases hmatches : Overload.exactMatches candidates op.methodName types with
  | nil =>
    rw [hmatches] at hexact
    cases hexact
  | cons first rest =>
    rw [Overload.resolve_exact registry_separates hmatches] at hfound
    cases rest with
    | cons => cases hfound
    | nil =>
      cases hfound
      have hfirst : first ∈ Overload.exactMatches candidates op.methodName types := by
        rw [hmatches]
        exact List.mem_singleton_self first
      have hkey : first.key = ⟨op.methodName, types.map Ty.key⟩ :=
        of_decide_eq_true (List.mem_filter.1 hfirst).2
      have hparams : first.params = [q, q] := hq.params
      have hsame : first.params.map Ty.key = types.map Ty.key := congrArg MethodKey.params hkey
      rw [hparams, hkeys] at hsame
      exact ⟨eq_of_mem_operandTypes hq.mem hu (List.cons.inj hsame).1, rfl⟩

section

variable (hpair : Ty.BoxBeside p t left.ty right.ty)

include hpair

/-- Operands of which one has a boxed type are lifted as `liftedType?` says. -/
theorem liftOperands_of_boxed : liftOperands op.methodName [left, right] =
    match liftedType? [left.ty, right.ty] with
    | some u => coerceAll [left, right] u
    | none => return [left, right] := by
  have hnull : [left, right].all (·.ty.isNull) = false := by
    rcases hpair with ⟨h, -⟩ | ⟨-, h⟩ <;> simp [h, Ty.isNull]
  have hcomparison : nullableComparisons.contains op.methodName = true := by
    cases op <;> decide
  rw [liftOperands, hnull, hcomparison]
  rfl

theorem liftOperands_of_liftsWith (hσ : σ.registry = Library.registry) (hlifts : t.liftsWith p)
    {lifted : List BoundNode}
    (hrun : liftOperands op.methodName [left, right] σ s = (.ok lifted, s')) :
    ∃ c d, Library.registry.implicitCast left.ty (t.comparedAt p) = .ok (some c) ∧
      Library.registry.implicitCast right.ty (t.comparedAt p) = .ok (some d) ∧
      lifted = [left.wrap c, right.wrap d] := by
  obtain ⟨⟨c, hc⟩, d, hd⟩ := Library.converts_of_liftsWith hpair hlifts
  have hcasts : castsTo (t.comparedAt p) [left, right] σ s = (.ok (some [c, d]), s) := by
    refine castsTo_of_converts (.cons ?_ (.cons ?_ .nil)) <;> rw [hσ] <;> assumption
  rw [liftOperands_of_boxed hpair, Ty.liftedType?_of_liftsWith hpair hlifts] at hrun
  dsimp only at hrun
  rw [coerceAll, run_bind_of_ok hcasts] at hrun
  exact ⟨c, d, hc, hd, (pure_eq_ok.1 hrun).1.symm⟩

theorem liftOperands_of_not_liftsWith (hlifts : t.liftsWith p = false) {lifted : List BoundNode}
    (hrun : liftOperands op.methodName [left, right] σ s = (.ok lifted, s')) :
    lifted = [left, right] := by
  rw [liftOperands_of_boxed hpair, Ty.liftedType?_of_not_liftsWith hpair hlifts] at hrun
  exact (pure_eq_ok.1 hrun).1.symm

/-- A comparison with an operand of a boxed type that ends up at an operator of the library calls
an overload, and if the other type is built in, the one for the type that they are compared at. -/
theorem operatorCall_comparesAt (hσ : σ.registry = Library.registry) {arguments : List BoundNode}
    (hm : m ∈ Library.operatorsNamed op.methodName)
    (hshape : n.shape = .methodCall m none arguments)
    (hrun : operatorCall op.methodName symbol [left, right] span σ s = (.ok n, s')) :
    ∃ q, Nonempty (Library.ComparesAt op q left right n) ∧
      (t ∈ Ty.builtins → q = t.comparedAt p) := by
  obtain ⟨lifted, s₁, hlift, hrest⟩ := bind_eq_ok.1 hrun
  obtain ⟨methods, s₂, hmethods, hrest⟩ := bind_eq_ok.1 hrest
  obtain ⟨resolution, s₃, hresolve, hrest⟩ := bind_eq_ok.1 hrest
  have hlibrary : ∀ m ∈ Library.operatorsNamed op.methodName, m ∈ methods := by
    rw [(findMethods_eq_ok hmethods).1]
    exact fun m hm => List.mem_append_right _ hm
  have hresolution := (resolve_eq_ok hresolve).1
  rw [hσ] at hresolution
  cases resolution with
  | notFound | ambiguous =>
    have herror := (errorNode_reports hrest).1
    rw [BoundNode.isError, hshape] at herror
    cases herror
  | found selection =>
    obtain ⟨rfl, rfl⟩ := buildCall_operator hrest hshape
    obtain ⟨q, hq⟩ := Library.overloads_of_mem hm
    cases hlifts : t.liftsWith p with
    | true =>
      -- Lifted operands have the type of comparison, and an overload takes that type exactly.
      obtain ⟨c, d, hc, hd, rfl⟩ := liftOperands_of_liftsWith hpair hσ hlifts hlift
      have hkeys : ([left.wrap c, right.wrap d].map (·.ty)).map Ty.key =
          [(t.comparedAt p).key, (t.comparedAt p).key] := by
        simp only [List.map_cons, List.map_nil, wrap_key hc, wrap_key hd]
      obtain ⟨rfl, hcasts⟩ := hq.exact_of_found (Library.comparedAt_mem_operandTypes p t)
        (Ty.isValued_comparedAt hlifts) hkeys hlibrary hresolution
      rw [hcasts, wrap_identities] at hshape
      exact ⟨_, ⟨⟨selection.method, hq, c, d, hc, hd, hshape⟩⟩, fun _ => rfl⟩
    | false =>
      -- Other operands stay as they are, and the nearest overload converts them.
      obtain rfl := liftOperands_of_not_liftsWith hpair hlifts hlift
      have happlicable :=
        (Overload.nearest_of_found Library.registry_answers hresolution).1.2
      obtain ⟨c, d, hcasts, hc, hd, -⟩ := happlicable.pair hq.params
      rw [hcasts] at hshape
      refine ⟨q, ⟨⟨selection.method, hq, c, d, hc, hd, hshape⟩⟩, fun hbuiltin => ?_⟩
      exact Ty.plainlyExtended_builtins.operandType_of_found hpair hlibrary hresolution hq
        (Ty.over_builtin (Ty.id?_of_mem_builtins hbuiltin)) hlifts

end

theorem bindAll_pair_eq_ok {first second : Child} {bound : List BoundNode}
    (h : bindAll [first, second] σ s = (.ok bound, s')) :
    ∃ left right s₁, bound = [left, right] ∧ first.bind σ s = (.ok left, s₁) ∧
      second.bind σ s₁ = (.ok right, s') := by
  obtain ⟨left, s₁, hleft, hrest⟩ := bind_eq_ok.1 h
  obtain ⟨rest, s₂, hrest, hpure⟩ := bind_eq_ok.1 hrest
  obtain ⟨right, s₃, hright, hrest⟩ := bind_eq_ok.1 hrest
  obtain ⟨none, s₄, hnil, hcons⟩ := bind_eq_ok.1 hrest
  obtain ⟨rfl, rfl⟩ := pure_eq_ok.1 hnil
  obtain ⟨rfl, rfl⟩ := pure_eq_ok.1 hcons
  obtain ⟨rfl, rfl⟩ := pure_eq_ok.1 hpure
  exact ⟨left, right, s₁, rfl, hleft, hright⟩

/-- An operator that was bound without an error was called on its operands. -/
theorem bindBinary_eq_ok {node : SyntaxNode} {operator : BinaryOp} {name : String}
    {children : List Child} {s₁ : BindState} (hname : operator.methodName? = some name)
    (hoperands : bindAll children σ s = (.ok [left, right], s₁))
    (hrun : bindBinary node operator children σ s = (.ok n, s')) (hn : n.isError = false) :
    AllBound [left, right] ∧
      operatorCall name operator.symbol [left, right] node.span σ s₁ = (.ok n, s') := by
  have hmalformed {arity : Arity} (h : malformed node arity σ s = (.ok n, s')) : False := by
    simp [(malformed_reports h).1] at hn
  rw [bindBinary, hname] at hrun
  rcases children with _ | ⟨first, _ | ⟨second, _ | ⟨third, rest⟩⟩⟩
  · exact (hmalformed hrun).elim
  · exact (hmalformed hrun).elim
  · obtain ⟨left', right', s₂, hbound, hleft, hright⟩ := bindAll_pair_eq_ok hoperands
    cases hbound
    dsimp only at hrun
    rw [run_bind_of_ok hleft, run_bind_of_ok hright] at hrun
    split at hrun
    case isTrue =>
      obtain ⟨rfl, -⟩ := pure_eq_ok.1 hrun
      cases hn
    case isFalse hfailed => exact ⟨.of_any (by simpa using hfailed), hrun⟩
  · exact (hmalformed hrun).elim

/-- A node that was bound without an error was bound within the nesting limit. -/
theorem bind_eq_ok_of_bound {kind : NodeKind} {text? : Option String} {children : List SyntaxNode}
    (hrun : bind ⟨kind, text?, children, span⟩ σ s = (.ok n, s')) (hn : n.isError = false) :
    ∃ s₁, bindKind ⟨kind, text?, children, span⟩ (childrenOf children) σ
      { s with depth := s.depth + 1 } = (.ok n, s₁) := by
  rw [bind] at hrun
  by_cases hdepth : s.depth < σ.config.maxBindDepth
  · cases hact : bindKind ⟨kind, text?, children, span⟩ (childrenOf children) σ
      { s with depth := s.depth + 1 } with
    | mk r s₁ =>
      rw [nested_of_lt hdepth hact] at hrun
      cases hrun
      exact ⟨s₁, rfl⟩
  · rw [nested_of_not_lt hdepth] at hrun
    simp [(errorNode_reports hrun).1] at hn

theorem Library.operators_not_constructors : ∀ m ∈ operators, m.head.kind ≠ .constructor := by
  decide +kernel

/-- The node is a comparison that binds to a call of an operator of the library, with operands that
bind to `left` and `right`. -/
structure BindsComparison (σ : BindSettings) (s : BindState) (node : SyntaxNode) (op : Comparison)
    (left right n : BoundNode) : Prop where
  kind : ∃ operator, node.kind = .binary operator ∧ operator.methodName? = some op.methodName
  operands : ∃ s₁, bindAll (childrenOf node.children) σ { s with depth := s.depth + 1 } =
    (.ok [left, right], s₁)
  binds : ∃ s', bind node σ s = (.ok n, s')
  calls : ∃ m ∈ Library.operatorsNamed op.methodName, ∃ arguments,
    n.shape = .methodCall m none arguments

/-- A comparison that binds without an error, in a module that has no method of its name, calls an
operator of the library. -/
theorem bindsComparison_of_bound {node : SyntaxNode} {operator : BinaryOp} {s₁ : BindState}
    (hkind : node.kind = .binary operator) (hname : operator.methodName? = some op.methodName)
    (hown : s.program.methodsNamed op.methodName = [])
    (hoperands : bindAll (childrenOf node.children) σ { s with depth := s.depth + 1 } =
      (.ok [left, right], s₁))
    (hbind : bind node σ s = (.ok n, s')) (hn : n.isError = false) :
    BindsComparison σ s node op left right n := by
  refine ⟨⟨operator, hkind, hname⟩, ⟨s₁, hoperands⟩, ⟨s', hbind⟩, ?_⟩
  have hprogram : s₁.program.methodsNamed op.methodName = [] := by
    rw [bindAll_keeps_program hoperands]
    exact hown
  obtain ⟨kind, text?, children, span⟩ := node
  subst hkind
  obtain ⟨s₂, hrun⟩ := bind_eq_ok_of_bound hbind hn
  obtain ⟨hbound, hcall⟩ := bindBinary_eq_ok hname hoperands hrun hn
  rcases operatorCall_builds hbound hcall with ⟨herror, -⟩ | ⟨lifted, -, -, ⟨call⟩⟩
  · simp [hn] at herror
  · have hm : call.method ∈ Library.operatorsNamed op.methodName := by
      simpa [hprogram] using call.mem
    have hkind := Library.operators_not_constructors call.method (List.mem_filter.1 hm).1
    exact ⟨call.method, hm, call.converted, by rw [call.shape_eq, if_neg hkind]⟩

/-- A comparison with an operand of a boxed type calls an overload, and if the other type is built
in, the one for the type that they are compared at. -/
theorem BindsComparison.comparesAt {node : SyntaxNode}
    (h : BindsComparison σ s node op left right n) (hσ : σ.registry = Library.registry)
    (hpair : Ty.BoxBeside p t left.ty right.ty) :
    ∃ q, Nonempty (Library.ComparesAt op q left right n) ∧
      (t ∈ Ty.builtins → q = t.comparedAt p) := by
  obtain ⟨kind, text?, children, span⟩ := node
  obtain ⟨⟨operator, rfl, hname⟩, ⟨s₁, hoperands⟩, ⟨s', hbind⟩, m, hm, arguments, hshape⟩ := h
  have hn : n.isError = false := by
    rw [BoundNode.isError, hshape]
  obtain ⟨s₂, hrun⟩ := bind_eq_ok_of_bound hbind hn
  exact operatorCall_comparesAt hpair hσ hm hshape
    (bindBinary_eq_ok hname hoperands hrun hn).2

end RuleExpr

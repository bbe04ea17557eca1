import RuleExpr.Proofs.Soundness.Casts
import Mathlib.Data.List.Forall2

/-!
# Operators Preserve Assignability

Every operator of the library answers arguments of its parameter types with a value of its return
type, or fails in an expected way.  Arithmetic fails for operands that are null and comparisons
answer them with null at most where their type says so, so that no operator meets a value of a
shape that it does not know.
-/

namespace RuleExpr

variable {d : Declarations}

/-- What a method is called on, by the type that its receiver is bound at. -/
def ReceiverFits (d : Declarations) : Option Ty → Option Value → Prop
  | none, receiver => receiver = none
  | some t, receiver => ∃ v, receiver = some v ∧ v.isNull = false ∧ Assignable d v t

/-- Arguments of the parameter types give a value of the return type or an expected failure. -/
def Method.Preserves (d : Declarations) (receiver? : Option Ty) (m : Method) : Prop :=
  ∀ receiver arguments (frames : Frames), ReceiverFits d receiver? receiver →
    List.Forall₂ (Assignable d) arguments m.params →
    Lands (Assignable d · m.returns) (m.invoke receiver arguments frames).1

namespace Library

/-- An operator keeps to its signature if the function it is made of does. -/
theorem unary_preserves {name : String} {param returns : Ty}
    {run : Value → Except EvalError Value}
    (h : ∀ x, Assignable d x param → Lands (Assignable d · returns) (run x)) :
    (unary name param returns run).Preserves d none := by
  intro receiver arguments frames _ harguments
  rw [unary, operator, Method.invoke]
  cases harguments with
  | cons hx hrest =>
    cases hrest with
    | nil => exact h _ hx

theorem binary_preserves {name : String} {left right returns : Ty}
    {run : Value → Value → Except EvalError Value}
    (h : ∀ x y, Assignable d x left → Assignable d y right →
      Lands (Assignable d · returns) (run x y)) :
    (binary name left right returns run).Preserves d none := by
  intro receiver arguments frames _ harguments
  rw [binary, operator, Method.invoke]
  cases harguments with
  | cons hx hrest =>
    cases hrest with
    | cons hy hrest =>
      cases hrest with
      | nil => exact h _ _ hx hy

end Library

/-- Numbers of a kind. -/
def Value.IsNumber (kind : NumericKind) (v : Value) : Prop := v.numericKind? = some kind

/-- A conversion ends at a number of the kind that was asked for. -/
theorem Value.convert_isNumber {v : Value} (hv : v.isNull = false) (kind : NumericKind) :
    Lands (Value.IsNumber kind) (v.convert kind) := by
  rcases v.convert_cases kind with ⟨hnull, -⟩ | ⟨-, ⟨converted, h, hkind⟩ | h⟩
  · rw [hv] at hnull
    cases hnull
  · rw [h]
    exact hkind
  · rw [h]
    rfl

section Kinds

variable {kind : NumericKind} (hkind : kind ∈ Library.operatorKinds) {x y : Value}

include hkind

theorem ArithmeticOp.onSameKind_isNumber (op : ArithmeticOp) (hx : x.IsNumber kind)
    (hy : y.IsNumber kind) : Lands (Value.IsNumber kind) (op.onSameKind kind x y) := by
  simp only [Library.operatorKinds, List.mem_cons, List.not_mem_nil, or_false] at hkind
  rcases hkind with rfl | rfl | rfl | rfl | rfl | rfl
  all_goals
    cases x <;> cases hx
    cases y <;> cases hy
    dsimp only [onSameKind]
    repeat' split
    all_goals rfl

theorem ArithmeticOp.apply_isNumber (op : ArithmeticOp) (x y : Value) :
    Lands (Value.IsNumber kind) (op.apply kind x y) := by
  unfold apply
  split
  · rfl
  case isFalse hnull =>
    simp only [Bool.or_eq_true, not_or, Bool.not_eq_true] at hnull
    refine (Value.convert_isNumber hnull.1 kind).bind fun x hx => ?_
    refine (Value.convert_isNumber hnull.2 kind).bind fun y hy => ?_
    exact op.onSameKind_isNumber hkind hx hy

theorem Value.negate_isNumber (x : Value) : Lands (Value.IsNumber kind) (x.negate kind) := by
  unfold negate
  split
  · rfl
  case isFalse hnull =>
    refine (convert_isNumber (Bool.eq_false_iff.2 hnull) kind).bind fun x hx => ?_
    simp only [Library.operatorKinds, List.mem_cons, List.not_mem_nil, or_false] at hkind
    rcases hkind with rfl | rfl | rfl | rfl | rfl | rfl
    all_goals
      cases x <;> cases hx
      rfl

theorem Comparison.numbers_lands (op : Comparison) (mode : Mode) (hx : x.isNull = false)
    (hy : y.isNull = false) : Lands (fun _ => True) (op.numbers mode kind x y) := by
  refine (Value.convert_isNumber hx kind).bind fun x hx => ?_
  refine (Value.convert_isNumber hy kind).bind fun y hy => ?_
  simp only [Library.operatorKinds, List.mem_cons, List.not_mem_nil, or_false] at hkind
  rcases hkind with rfl | rfl | rfl | rfl | rfl | rfl
  all_goals
    cases x <;> cases hx
    cases y <;> cases hy
    trivial

end Kinds

namespace Comparison

variable {α : Type} [Comparable α]

/-- Whether two things are equal is known even if one is null. -/
theorem nullable_isSome {op : Comparison} (h : op.isEquality) (x y : Option α) :
    (op.nullable x y).isSome := by
  cases op <;> first | rfl | cases h

theorem generic_isSome {op : Comparison} (h : op.isEquality) (x y : Option α) :
    (op.generic x y).isSome := by
  rw [generic, if_pos h]
  exact nullable_isSome h x y

/-- An answer that may be unknown has the type that says so. -/
theorem ofUnknown_assignable {op : Comparison} {answer : Option Bool}
    (h : op.isEquality → answer.isSome) :
    Assignable d (ofUnknown answer) (Library.nullableAnswer op) := by
  unfold Library.nullableAnswer
  split
  case isTrue hequality =>
    obtain ⟨b, rfl⟩ := Option.isSome_iff_exists.1 (h hequality)
    exact .bool rfl
  case isFalse =>
    cases answer with
    | none => exact .null rfl
    | some b => exact .bool rfl

theorem bool_assignable (op : Comparison) (b : Bool) :
    Assignable d (.bool b) (Library.nullableAnswer op) := by
  change Assignable d (ofUnknown (some b)) _
  exact ofUnknown_assignable fun _ => rfl

theorem numbersOrNull_lands {kind : NumericKind} (hkind : kind ∈ Library.operatorKinds)
    (op : Comparison) (mode : Mode) (x y : Value) :
    Lands (Assignable d · (Library.nullableAnswer op)) (op.numbersOrNull mode kind x y) := by
  unfold numbersOrNull
  split
  · exact ofUnknown_assignable fun h => nullable_isSome h _ _
  case isFalse hnull =>
    simp only [Bool.or_eq_true, not_or, Bool.not_eq_true] at hnull
    exact (op.numbers_lands hkind mode hnull.1 hnull.2).map fun b _ => op.bool_assignable b

theorem expectBool_lands {x : Value} (hx : Assignable d x .boolean) :
    Lands (fun _ => True) (expectBool x) := by
  obtain ⟨b, rfl⟩ := hx.exists_bool
  trivial

theorem boolOrNull_lands {x : Value} (hx : Assignable d x (.boxed .boolean)) :
    Lands (fun _ => True) (boolOrNull x) := by
  rcases hx.null_or_bool with rfl | ⟨b, rfl⟩ <;> trivial

theorem stringOrNull_lands {x : Value} (hx : Assignable d x .string) :
    Lands (fun _ => True) (stringOrNull x) := by
  rcases hx.null_or_string with rfl | ⟨text, rfl⟩ <;> trivial

end Comparison

namespace Library

theorem mem_operatorKinds_promote (kind other : NumericKind) :
    kind.promote other ∈ operatorKinds := by
  cases kind <;> cases other <;> decide

theorem isNumber_assignable {kind : NumericKind} {v : Value} (hv : v.IsNumber kind) :
    Assignable d v (.ofNumericKind kind) :=
  .number hv (Ty.holds_ofNumericKind kind)

theorem arithmeticOf_preserves {kind : NumericKind} (hkind : kind ∈ operatorKinds) {m : Method}
    (h : m ∈ arithmeticOf kind) : m.Preserves d none := by
  rcases List.mem_append.1 h with h | h
  · obtain ⟨op, -, rfl⟩ := List.mem_map.1 h
    refine binary_preserves fun x y _ _ => ?_
    exact (op.apply_isNumber hkind x y).imp fun _ => isNumber_assignable
  · rw [List.mem_singleton.1 h]
    refine unary_preserves fun x _ => ?_
    exact (x.negate_isNumber hkind).imp fun _ => isNumber_assignable

/-- The result is a number of the kind of the wrapper again. -/
theorem wrapperArithmeticOf_preserves {kind : MetaKind} {m : Method}
    (h : m ∈ wrapperArithmeticOf kind) : m.Preserves d none := by
  obtain ⟨op, -, rfl⟩ := List.mem_map.1 h
  refine binary_preserves fun x y _ _ => ?_
  refine (op.apply_isNumber (mem_operatorKinds_promote _ _) x y).bind fun v hv => ?_
  have hresult := Value.convert_isNumber (Value.isNull_of_numericKind? hv) kind.numeric
  exact hresult.imp fun _ hw => .number hw (Ty.holds_wrapper kind)

theorem comparisonsOf_preserves {kind : NumericKind} (hkind : kind ∈ operatorKinds) {m : Method}
    (h : m ∈ comparisonsOf kind) : m.Preserves d none := by
  obtain ⟨op, -, h⟩ := List.mem_flatMap.1 h
  obtain ⟨mode, -, rfl⟩ := List.mem_map.1 h
  split
  · exact binary_preserves fun x y _ _ => op.numbersOrNull_lands hkind mode x y
  case isFalse hreference =>
    have hprimitive : (Ty.ofNumericKind kind).isPrimitive = true := by
      cases kind <;> first | rfl | exact absurd rfl hreference
    refine binary_preserves fun x y hx hy => ?_
    exact (op.numbers_lands hkind mode (hx.isNull_eq_false_of_isPrimitive hprimitive)
      (hy.isNull_eq_false_of_isPrimitive hprimitive)).map fun _ _ => .bool rfl

/-- Boxed numbers are compared at the kind that arithmetic on them works with. -/
theorem boxedComparisonsOf_preserves {primitive : Primitive} {m : Method}
    (h : m ∈ boxedComparisonsOf primitive) : m.Preserves d none := by
  unfold boxedComparisonsOf at h
  split at h
  · cases h
  case h_2 kind _ =>
    obtain ⟨op, -, rfl⟩ := List.mem_map.1 h
    exact binary_preserves fun x y _ _ =>
      op.numbersOrNull_lands (mem_operatorKinds_promote _ _) .loose x y

theorem otherComparisons_preserve {op : Comparison} {m : Method} (h : m ∈ otherComparisons op) :
    m.Preserves d none := by
  simp only [otherComparisons, List.mem_cons, List.not_mem_nil, or_false] at h
  rcases h with rfl | rfl | rfl
  · refine binary_preserves fun x y hx hy => ?_
    refine (Comparison.expectBool_lands hx).bind fun a _ => ?_
    exact (Comparison.expectBool_lands hy).bind fun b _ => .bool rfl
  · refine binary_preserves fun x y hx hy => ?_
    refine (Comparison.boolOrNull_lands hx).bind fun a _ => ?_
    refine (Comparison.boolOrNull_lands hy).bind fun b _ => ?_
    exact Comparison.ofUnknown_assignable fun h => Comparison.nullable_isSome h a b
  · refine binary_preserves fun x y hx hy => ?_
    refine (Comparison.stringOrNull_lands hx).bind fun a _ => ?_
    refine (Comparison.stringOrNull_lands hy).bind fun b _ => ?_
    exact Comparison.ofUnknown_assignable fun h => Comparison.generic_isSome h a b

theorem objectComparisons_preserve {m : Method} (h : m ∈ objectComparisons) :
    m.Preserves d none := by
  simp only [objectComparisons, List.mem_cons, List.not_mem_nil, or_false] at h
  rcases h with rfl | rfl
  · exact binary_preserves fun x y _ _ => .bool rfl
  · exact binary_preserves fun x y _ _ => .bool rfl

theorem logicAndText_preserve {m : Method} (h : m ∈ logicAndText) : m.Preserves d none := by
  simp only [logicAndText, List.mem_cons, List.not_mem_nil, or_false] at h
  rcases h with rfl | rfl | rfl | rfl
  · refine unary_preserves fun x hx => ?_
    exact (Comparison.expectBool_lands hx).bind fun b _ => .bool rfl
  · exact binary_preserves fun x y _ _ => .string
  · exact binary_preserves fun x y _ _ => .string
  · exact binary_preserves fun x y _ _ => .string

/-- Every operator of the library gives values of the type it declares. -/
theorem operators_preserve {m : Method} (h : m ∈ operators) : m.Preserves d none := by
  simp only [operators, List.mem_append, List.mem_flatMap] at h
  rcases h with (((((⟨kind, hkind, h⟩ | ⟨kind, -, h⟩) | ⟨kind, hkind, h⟩) | ⟨kind, -, h⟩) |
    ⟨op, -, h⟩) | h) | h
  · exact arithmeticOf_preserves hkind h
  · exact wrapperArithmeticOf_preserves h
  · exact comparisonsOf_preserves hkind h
  · exact boxedComparisonsOf_preserves h
  · exact otherComparisons_preserve h
  · exact objectComparisons_preserve h
  · exact logicAndText_preserve h

end Library

end RuleExpr

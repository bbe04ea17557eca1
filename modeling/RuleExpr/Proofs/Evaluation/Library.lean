import RuleExpr.Proofs.Evaluation.Frames
import RuleExpr.Proofs.Soundness.Casts

/-!
# Failures of the Library

Whatever arguments they are called with, the operators and the conversions of the library fail with
errors about the arguments alone, and never with one about a frame.
-/

namespace RuleExpr

/-- What goes wrong in arithmetic is a division by zero, or an operand of another kind. -/
theorem ArithmeticOp.onSameKind_ordinary (op : ArithmeticOp) (kind : NumericKind) (x y : Value) :
    Ordinary (op.onSameKind kind x y) := by
  unfold onSameKind
  repeat' split
  all_goals first | exact .ok _ | exact .error rfl

theorem ArithmeticOp.apply_ordinary (op : ArithmeticOp) (kind : NumericKind) (x y : Value) :
    Ordinary (op.apply kind x y) := by
  unfold apply
  split
  · exact .error rfl
  · refine (x.convert_ordinary kind).bind fun x => ?_
    exact (y.convert_ordinary kind).bind fun y => op.onSameKind_ordinary kind x y

theorem Value.negate_ordinary (kind : NumericKind) (x : Value) : Ordinary (x.negate kind) := by
  unfold negate
  split
  · exact .error rfl
  · refine (x.convert_ordinary kind).bind fun x => ?_
    split <;> first | exact .ok _ | exact .error rfl

namespace Comparison

variable (op : Comparison) (x y : Value)

theorem numbers_ordinary (mode : Mode) (kind : NumericKind) :
    Ordinary (op.numbers mode kind x y) := by
  refine (x.convert_ordinary kind).bind fun x => (y.convert_ordinary kind).bind fun y => ?_
  split <;> first | exact .ok _ | exact .error rfl

/-- Beside null, no number is converted. -/
theorem numbersOrNull_ordinary (mode : Mode) (kind : NumericKind) :
    Ordinary (op.numbersOrNull mode kind x y) := by
  unfold numbersOrNull
  split
  · exact .ok _
  · exact .map _ (op.numbers_ordinary x y mode kind)

theorem expectBool_ordinary : Ordinary (expectBool x) := by
  cases x <;> first | exact .ok _ | exact .error rfl

theorem boolOrNull_ordinary : Ordinary (boolOrNull x) := by
  cases x <;> first | exact .ok _ | exact .error rfl

theorem stringOrNull_ordinary : Ordinary (stringOrNull x) := by
  cases x <;> first | exact .ok _ | exact .error rfl

end Comparison

namespace Library

variable {m : Method}

/-- An operator fails as the function it is made of. -/
theorem unary_ordinary {name : String} {param returns : Ty} {run : Value → Except EvalError Value}
    (h : ∀ x, Ordinary (run x)) :
    (unary name param returns run).FailsIn (·.aboutFrames = false) := by
  intro receiver arguments frames e he
  rw [unary, operator, Method.invoke] at he
  exact h _ e he

theorem binary_ordinary {name : String} {left right returns : Ty}
    {run : Value → Value → Except EvalError Value} (h : ∀ x y, Ordinary (run x y)) :
    (binary name left right returns run).FailsIn (·.aboutFrames = false) := by
  intro receiver arguments frames e he
  rw [binary, operator, Method.invoke] at he
  exact h _ _ e he

theorem arithmeticOf_ordinary {kind : NumericKind} (h : m ∈ arithmeticOf kind) :
    m.FailsIn (·.aboutFrames = false) := by
  rcases List.mem_append.1 h with h | h
  · obtain ⟨op, -, rfl⟩ := List.mem_map.1 h
    exact binary_ordinary (op.apply_ordinary kind)
  · rw [List.mem_singleton.1 h]
    exact unary_ordinary (Value.negate_ordinary kind)

/-- The result is converted back to the kind of the wrapper, which may fail as well. -/
theorem wrapperArithmeticOf_ordinary {kind : MetaKind} (h : m ∈ wrapperArithmeticOf kind) :
    m.FailsIn (·.aboutFrames = false) := by
  obtain ⟨op, -, rfl⟩ := List.mem_map.1 h
  exact binary_ordinary fun x y =>
    (op.apply_ordinary _ x y).bind fun v => v.convert_ordinary kind.numeric

theorem comparisonsOf_ordinary {kind : NumericKind} (h : m ∈ comparisonsOf kind) :
    m.FailsIn (·.aboutFrames = false) := by
  obtain ⟨op, -, h⟩ := List.mem_flatMap.1 h
  obtain ⟨mode, -, rfl⟩ := List.mem_map.1 h
  split
  · exact binary_ordinary fun x y => op.numbersOrNull_ordinary x y mode kind
  · exact binary_ordinary fun x y => .map _ (op.numbers_ordinary x y mode kind)

theorem boxedComparisonsOf_ordinary {primitive : Primitive} (h : m ∈ boxedComparisonsOf primitive) :
    m.FailsIn (·.aboutFrames = false) := by
  unfold boxedComparisonsOf at h
  split at h
  · cases h
  · obtain ⟨op, -, rfl⟩ := List.mem_map.1 h
    exact binary_ordinary fun x y => op.numbersOrNull_ordinary x y _ _

/-- Booleans, boxed booleans and texts are compared once they are known to be such. -/
theorem otherComparisons_ordinary {op : Comparison} (h : m ∈ otherComparisons op) :
    m.FailsIn (·.aboutFrames = false) := by
  simp only [otherComparisons, List.mem_cons, List.not_mem_nil, or_false] at h
  rcases h with rfl | rfl | rfl
  · exact binary_ordinary fun x y => (Comparison.expectBool_ordinary x).bind fun _ =>
      (Comparison.expectBool_ordinary y).bind fun _ => .ok _
  · exact binary_ordinary fun x y => (Comparison.boolOrNull_ordinary x).bind fun _ =>
      (Comparison.boolOrNull_ordinary y).bind fun _ => .ok _
  · exact binary_ordinary fun x y => (Comparison.stringOrNull_ordinary x).bind fun _ =>
      (Comparison.stringOrNull_ordinary y).bind fun _ => .ok _

theorem objectComparisons_ordinary (h : m ∈ objectComparisons) :
    m.FailsIn (·.aboutFrames = false) := by
  simp only [objectComparisons, List.mem_cons, List.not_mem_nil, or_false] at h
  rcases h with rfl | rfl
  · exact binary_ordinary fun _ _ => .ok _
  · exact binary_ordinary fun _ _ => .ok _

theorem logicAndText_ordinary (h : m ∈ logicAndText) : m.FailsIn (·.aboutFrames = false) := by
  simp only [logicAndText, List.mem_cons, List.not_mem_nil, or_false] at h
  rcases h with rfl | rfl | rfl | rfl
  · exact unary_ordinary fun x => (Comparison.expectBool_ordinary x).bind fun _ => .ok _
  · exact binary_ordinary fun _ _ => .ok _
  · exact binary_ordinary fun _ _ => .ok _
  · exact binary_ordinary fun _ _ => .ok _

/-- No operator of the library fails for the frames. -/
theorem operators_ordinary (h : m ∈ operators) : m.FailsIn (·.aboutFrames = false) := by
  simp only [operators, List.mem_append, List.mem_flatMap] at h
  rcases h with (((((⟨kind, -, h⟩ | ⟨kind, -, h⟩) | ⟨kind, -, h⟩) | ⟨kind, -, h⟩) |
    ⟨op, -, h⟩) | h) | h
  · exact arithmeticOf_ordinary h
  · exact wrapperArithmeticOf_ordinary h
  · exact comparisonsOf_ordinary h
  · exact boxedComparisonsOf_ordinary h
  · exact otherComparisons_ordinary h
  · exact objectComparisons_ordinary h
  · exact logicAndText_ordinary h

/-- Neither does a conversion of the library. -/
theorem casts_ordinary {entry : Conversion} (h : entry ∈ casts.entries) :
    entry.method.FailsIn (·.aboutFrames = false) := by
  obtain ⟨kind, -, -, hconvert⟩ := casts_convertsTo h
  intro receiver arguments frames e he
  rw [hconvert] at he
  exact Value.convert_ordinary _ kind e he

end Library

end RuleExpr

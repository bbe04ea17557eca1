import RuleExpr.Bound.Eval
import RuleExpr.Operators.Library
import RuleExpr.Proofs.WholeNumbers

/-!
# Division of Whole Numbers

Arithmetic on whole numbers is exact arithmetic followed by a reduction to the kind.  Reducing is
compatible with sums and products, so a dividend is the product of quotient and divisor plus the
remainder in every kind, whether or not the quotient had to be reduced: the quotient of the least
number by -1 is the one that has to.  The remainder lies between 0 and the dividend, so it is never
reduced.

Bytes and shorts have no arithmetic of their own.  Their wrappers are computed as ints and brought
back after each operation, which reduces once more, modulo a divisor of the first modulus.
-/

namespace RuleExpr

open Number

variable {kind : WholeKind} {op : ArithmeticOp} {receiver : Option Value} {x y : Value} {m n : Int}

namespace WholeKind

/-- The type at which the library computes with values of the kind. -/
def operandType : WholeKind → Ty
  | byte => .wrapper .byte
  | short => .wrapper .short
  | int => .int
  | long => .primitive .long
  | bigInteger => .bigInteger

/-- An operation on two values of the kind. -/
def operate (kind : WholeKind) (op : ArithmeticOp) (x y : Value) : Except EvalError Value :=
  match kind with
  | byte | short => do (← op.apply .int x y).convert kind.numeric
  | int | long | bigInteger => op.apply kind.numeric x y

end WholeKind

namespace Library

/-- The library has overloads of the operation for two operands of the type, and each of them runs
`run` on its arguments. -/
structure Computes (op : ArithmeticOp) (t : Ty)
    (run : Value → Value → Except EvalError Value) : Prop where
  exists_overload : ∃ method ∈ operatorsNamed op.methodName, method.params = [t, t]
  invoke_eq : ∀ method ∈ operatorsNamed op.methodName, method.params = [t, t] →
    ∀ receiver x y, (method.invoke receiver [x, y] : EvalM Value) = .ofResult (run x y)

theorem methodName_injective {op' : ArithmeticOp} (h : op'.methodName = op.methodName) :
    op' = op := by
  revert h
  cases op' <;> cases op <;> decide

/-- Comparisons are not named like arithmetic. -/
theorem not_arithmetic_names : ∀ op ∈ ArithmeticOp.all,
    ∀ method ∈ operatorKinds.flatMap comparisonsOf ++ Primitive.all.flatMap boxedComparisonsOf ++
      Comparison.all.flatMap otherComparisons ++ objectComparisons,
      method.name ≠ op.methodName := by
  decide +kernel

theorem not_arithmetic_operands :
    ∀ method ∈ logicAndText, method.params ≠ [kind.operandType, kind.operandType] := by
  have hkeys : ∀ method ∈ logicAndText, method.params.map Ty.key ≠
      [kind.operandType.key, kind.operandType.key] := by
    cases kind <;> decide +kernel
  exact fun method hmethod hparams => hkeys method hmethod (by rw [hparams]; rfl)

theorem numeric_of_operandType {given : NumericKind}
    (h : Ty.ofNumericKind given = kind.operandType) : given = kind.numeric ∧
      kind ≠ .byte ∧ kind ≠ .short := by
  have hkey := congrArg Ty.key h
  revert hkey
  cases given <;> cases kind <;> decide +kernel

theorem wrapper_of_operandType {given : MetaKind} (h : Ty.wrapper given = kind.operandType) :
    given = .byte ∧ kind = .byte ∨ given = .short ∧ kind = .short := by
  have hkey := congrArg Ty.key h
  revert hkey
  cases given <;> cases kind <;> decide +kernel

theorem invoke_arithmetic {given : NumericKind} {method : Method} (h : method ∈ arithmeticOf given)
    (hname : method.name = op.methodName)
    (hparams : method.params = [kind.operandType, kind.operandType]) :
    (method.invoke receiver [x, y] : EvalM Value) = Fallible.ofResult (kind.operate op x y) := by
  rcases List.mem_append.1 h with h | h
  · obtain ⟨op', -, rfl⟩ := List.mem_map.1 h
    obtain rfl : op' = op := methodName_injective hname
    obtain ⟨rfl, hplain⟩ := numeric_of_operandType (List.cons.inj hparams).1
    cases kind with
    | byte => exact absurd rfl hplain.1
    | short => exact absurd rfl hplain.2
    | int | long | bigInteger => rfl
  · rw [List.mem_singleton.1 h] at hparams
    cases congrArg List.length hparams

theorem invoke_wrapperArithmetic {given : MetaKind} {method : Method}
    (h : method ∈ wrapperArithmeticOf given) (hname : method.name = op.methodName)
    (hparams : method.params = [kind.operandType, kind.operandType]) :
    (method.invoke receiver [x, y] : EvalM Value) = Fallible.ofResult (kind.operate op x y) := by
  obtain ⟨op', -, rfl⟩ := List.mem_map.1 h
  obtain rfl : op' = op := methodName_injective hname
  rcases wrapper_of_operandType (List.cons.inj hparams).1 with ⟨rfl, rfl⟩ | ⟨rfl, rfl⟩
  · rfl
  · rfl

theorem mem_operatorsNamed {method : Method}
    (h : method ∈ operatorKinds.flatMap arithmeticOf ++ MetaKind.all.flatMap wrapperArithmeticOf)
    (hname : method.name = op.methodName) : method ∈ operatorsNamed op.methodName := by
  refine List.mem_filter.2 ⟨?_, decide_eq_true hname⟩
  simp only [operators, List.append_assoc]
  rw [← List.append_assoc]
  exact List.mem_append_left _ h

theorem exists_arithmetic_overload (kind : WholeKind) (op : ArithmeticOp) :
    ∃ method ∈ operatorsNamed op.methodName,
      method.params = [kind.operandType, kind.operandType] := by
  have hop : op ∈ ArithmeticOp.all := by cases op <;> simp [ArithmeticOp.all]
  have hplain (given : NumericKind) (hgiven : given ∈ operatorKinds) :
      ∃ method ∈ operatorsNamed op.methodName,
        method.params = [.ofNumericKind given, .ofNumericKind given] := by
    have hmem : ∃ method ∈ arithmeticOf given, method.name = op.methodName ∧
        method.params = [.ofNumericKind given, .ofNumericKind given] :=
      ⟨_, List.mem_append_left _ (List.mem_map_of_mem hop), rfl, rfl⟩
    obtain ⟨method, hmem, hname, hparams⟩ := hmem
    exact ⟨method, mem_operatorsNamed
      (List.mem_append_left _ (List.mem_flatMap.2 ⟨given, hgiven, hmem⟩)) hname, hparams⟩
  have hwrapped (given : MetaKind) (hgiven : given ∈ MetaKind.all) :
      ∃ method ∈ operatorsNamed op.methodName,
        method.params = [.wrapper given, .wrapper given] :=
    ⟨_, mem_operatorsNamed
      (List.mem_append_right _ (List.mem_flatMap.2 ⟨given, hgiven, List.mem_map_of_mem hop⟩))
      rfl, rfl⟩
  cases kind with
  | byte => exact hwrapped .byte (by decide)
  | short => exact hwrapped .short (by decide)
  | int => exact hplain .int (by decide)
  | long => exact hplain .long (by decide)
  | bigInteger => exact hplain .bigInteger (by decide)

theorem computes_operate (kind : WholeKind) (op : ArithmeticOp) :
    Computes op kind.operandType (kind.operate op) where
  exists_overload := exists_arithmetic_overload kind op
  invoke_eq method hmethod hparams receiver x y := by
    rw [operatorsNamed, List.mem_filter, decide_eq_true_iff] at hmethod
    obtain ⟨hmem, hname⟩ := hmethod
    have hother := not_arithmetic_names op (by cases op <;> simp [ArithmeticOp.all]) method
    simp only [operators, List.mem_append, List.mem_flatMap] at hmem hother
    rcases hmem with (((((⟨given, -, h⟩ | ⟨given, -, h⟩) | h) | h) | h) | h) | h
    · exact invoke_arithmetic h hname hparams
    · exact invoke_wrapperArithmetic h hname hparams
    · exact absurd hname (hother (.inl (.inl (.inl h))))
    · exact absurd hname (hother (.inl (.inl (.inr h))))
    · exact absurd hname (hother (.inl (.inr h)))
    · exact absurd hname (hother (.inr h))
    · exact absurd hparams (not_arithmetic_operands method h)

end Library

namespace WholeKind

/-- The exact result of an operation, reduced to the kind. -/
def outcome (kind : WholeKind) (op : ArithmeticOp) (m n : Int) : Except EvalError Value :=
  if op.divides ∧ n = 0 then .error .divisionByZero else .ok (kind.value (op.onInt m n))

theorem onSameKind_int (hm : int.Holds m) (hn : int.Holds n) :
    op.onSameKind .int (int.value m) (int.value n) = int.outcome op m n := by
  have hzero : Int32.ofInt n = 0 ↔ n = 0 := by
    have hword : (Int32.ofInt n).toInt = n := Int32.toInt_ofInt.trans (bmod_of_holds hn)
    rw [← Int32.toInt_inj, hword]
    rfl
  have hresult : op.onInt32 (.ofInt m) (.ofInt n) = .ofInt (op.onInt m n) := by
    rw [holds_iff (by decide)] at hm hn
    simp only [size, Int32.size] at hm hn
    have hmin : Int32.minValue.toInt = -2147483648 := rfl
    have hmax : Int32.maxValue.toInt = 2147483647 := rfl
    cases op with
    | add => exact (Int32.ofInt_add m n).symm
    | subtract => exact (Int32.ofInt_sub m n).symm
    | multiply => exact (Int32.ofInt_mul m n).symm
    | divide => exact (Int32.ofInt_tdiv (by omega) (by omega) (by omega) (by omega)).symm
    | remainder => exact (Int32.ofInt_tmod (by omega) (by omega) (by omega) (by omega)).symm
  simp only [outcome, value, ArithmeticOp.onSameKind, hresult, Bool.and_eq_true, beq_iff_eq, hzero]

theorem onSameKind_long (hm : long.Holds m) (hn : long.Holds n) :
    op.onSameKind .long (long.value m) (long.value n) = long.outcome op m n := by
  have hzero : Int64.ofInt n = 0 ↔ n = 0 := by
    rw [← Int64.toInt_inj, toInt_ofInt_of_holds hn]
    rfl
  have hresult : op.onInt64 (.ofInt m) (.ofInt n) = .ofInt (op.onInt m n) := by
    rw [holds_iff (by decide)] at hm hn
    simp only [size, Int64.size] at hm hn
    have hmin : Int64.minValue.toInt = -9223372036854775808 := rfl
    have hmax : Int64.maxValue.toInt = 9223372036854775807 := rfl
    cases op with
    | add => exact (Int64.ofInt_add m n).symm
    | subtract => exact (Int64.ofInt_sub m n).symm
    | multiply => exact (Int64.ofInt_mul m n).symm
    | divide => exact (Int64.ofInt_tdiv (by omega) (by omega) (by omega) (by omega)).symm
    | remainder => exact (Int64.ofInt_tmod (by omega) (by omega) (by omega) (by omega)).symm
  simp only [outcome, value, ArithmeticOp.onSameKind, hresult, Bool.and_eq_true, beq_iff_eq, hzero]

theorem onSameKind_bigInteger :
    op.onSameKind .bigInteger (bigInteger.value m) (bigInteger.value n) =
      bigInteger.outcome op m n := by
  simp only [outcome, value, ArithmeticOp.onSameKind, Bool.and_eq_true, beq_iff_eq]

theorem apply_eq (hkind : kind ≠ byte ∧ kind ≠ short) (hx : x.Denotes m) (hy : y.Denotes n)
    (hm : kind.Holds m) (hn : kind.Holds n) :
    op.apply kind.numeric x y = kind.outcome op m n := by
  have happly : op.apply kind.numeric x y =
      op.onSameKind kind.numeric (kind.value m) (kind.value n) := by
    rw [ArithmeticOp.apply, hx.isNull, hy.isNull, hx.convert_whole (fits_of_holds hm),
      hy.convert_whole (fits_of_holds hn)]
    rfl
  rw [happly]
  cases kind with
  | byte => exact absurd rfl hkind.1
  | short => exact absurd rfl hkind.2
  | int => exact onSameKind_int hm hn
  | long => exact onSameKind_long hm hn
  | bigInteger => exact onSameKind_bigInteger

/-- Wrapped numbers are reduced once more, which makes no difference. -/
theorem operate_narrow (hsize : kind.size ∣ int.size) (hx : x.Denotes m) (hy : y.Denotes n)
    (hm : kind.Holds m) (hn : kind.Holds n) :
    (do (← op.apply .int x y).convert kind.numeric) = kind.outcome op m n := by
  have happly : op.apply .int x y = int.outcome op m n :=
    apply_eq (by decide) hx hy (holds_of_dvd hsize hm) (holds_of_dvd hsize hn)
  rw [happly, outcome, outcome]
  split
  · rfl
  · have hfits := (fits_of_holds (int.holds_bmod (op.onInt m n))).resolve_left (by decide)
    exact convert_value hfits hsize

/-- An operation is the exact one, reduced to the kind. -/
theorem operate_eq (hx : x.Denotes m) (hy : y.Denotes n) (hm : kind.Holds m) (hn : kind.Holds n) :
    kind.operate op x y = kind.outcome op m n := by
  cases kind with
  | byte => exact operate_narrow (by decide) hx hy hm hn
  | short => exact operate_narrow (by decide) hx hy hm hn
  | int => exact apply_eq (by decide) hx hy hm hn
  | long => exact apply_eq (by decide) hx hy hm hn
  | bigInteger => exact apply_eq (by decide) hx hy hm hn

/-- Sums of reduced numbers are reduced sums. -/
theorem operate_add (kind : WholeKind) (m n : Int) :
    kind.operate .add (kind.value m) (kind.value n) = .ok (kind.value (m + n)) := by
  rw [operate_eq (denotes_value_iff.2 rfl) (denotes_value_iff.2 rfl) (kind.holds_bmod m)
    (kind.holds_bmod n), outcome, if_neg (fun h => Bool.noConfusion h.1)]
  exact congrArg Except.ok (value_eq_of_modEq ((kind.bmod_modEq m).add (kind.bmod_modEq n)))

/-- Products of reduced numbers are reduced products. -/
theorem operate_multiply (kind : WholeKind) (m n : Int) :
    kind.operate .multiply (kind.value m) (kind.value n) = .ok (kind.value (m * n)) := by
  rw [operate_eq (denotes_value_iff.2 rfl) (denotes_value_iff.2 rfl) (kind.holds_bmod m)
    (kind.holds_bmod n), outcome, if_neg (fun h => Bool.noConfusion h.1)]
  exact congrArg Except.ok (value_eq_of_modEq ((kind.bmod_modEq m).mul (kind.bmod_modEq n)))

/-- A remainder lies between 0 and the dividend. -/
theorem holds_tmod (hm : kind.Holds m) (n : Int) : kind.Holds (m.tmod n) := by
  rcases hm with hkind | ⟨hlow, hhigh⟩
  · exact .inl hkind
  · have habs : (m.tmod n).natAbs ≤ m.natAbs := by
      rw [Int.natAbs_tmod]
      exact Nat.mod_le _ _
    refine .inr ?_
    rcases Int.le_total 0 m with hpos | hneg
    · have := Int.tmod_nonneg n hpos
      exact ⟨by omega, by omega⟩
    · have := Int.tmod_nonneg n (Int.neg_nonneg_of_nonpos hneg)
      rw [Int.neg_tmod] at this
      exact ⟨by omega, by omega⟩

end WholeKind

theorem tmod_sign (m n : Int) : m.tmod n = 0 ∨ (m.tmod n).sign = m.sign := by
  rw [Int.sign_tmod]
  by_cases h : n ∣ m
  · exact .inl (Int.tmod_eq_zero_of_dvd h)
  · exact .inr (if_neg h)

theorem natAbs_tmod_lt (m : Int) (hn : n ≠ 0) : (m.tmod n).natAbs < n.natAbs := by
  rw [Int.natAbs_tmod]
  exact Nat.mod_lt _ (Int.natAbs_pos.2 hn)

/-- The library computes with whole numbers of each kind, those of bytes and shorts at their
wrappers.  An operation gives the only value of the kind that is congruent to the exact result, or
reports a division by zero if it divides by that.  Quotient times divisor plus remainder is the
dividend, with every step reduced, and the remainder is zero or has the sign of the dividend, and is
smaller than the divisor. -/
theorem division_reconstructs (kind : WholeKind) (x y : Value)
    (hx : x.numericKind? = some kind.numeric) (hy : y.numericKind? = some kind.numeric) :
    (∀ op, Library.Computes op kind.operandType (kind.operate op)) ∧
      ∃ m n, x.Denotes m ∧ y.Denotes n ∧
        (∀ op : ArithmeticOp, (op.divides → n ≠ 0) →
          ∃ r, kind.operate op x y = .ok r ∧ r.numericKind? = some kind.numeric ∧
            ∀ k, r.Denotes k ↔ kind.Holds k ∧ k ≡ op.onInt m n [ZMOD kind.size]) ∧
        (∀ op : ArithmeticOp, op.divides → n = 0 →
          kind.operate op x y = .error .divisionByZero) ∧
        (n ≠ 0 → ∃ quotient product remainder k,
          kind.operate .divide x y = .ok quotient ∧
          kind.operate .multiply quotient y = .ok product ∧
          kind.operate .remainder x y = .ok remainder ∧
          kind.operate .add product remainder = .ok x ∧
          remainder.Denotes k ∧ (k = 0 ∨ k.sign = m.sign) ∧ k.natAbs < n.natAbs) := by
  obtain ⟨m, hm, rfl⟩ := WholeKind.exists_eq_value hx
  obtain ⟨n, hn, rfl⟩ := WholeKind.exists_eq_value hy
  have hdividend := WholeKind.denotes_value hm
  have hdivisor := WholeKind.denotes_value hn
  have hoperate (op : ArithmeticOp) :
      kind.operate op (kind.value m) (kind.value n) = kind.outcome op m n :=
    WholeKind.operate_eq hdividend hdivisor hm hn
  have hresult (op : ArithmeticOp) (h : op.divides → n ≠ 0) :
      kind.operate op (kind.value m) (kind.value n) = .ok (kind.value (op.onInt m n)) :=
    (hoperate op).trans (if_neg fun hzero => h hzero.1 hzero.2)
  refine ⟨Library.computes_operate kind, m, n, hdividend, hdivisor, fun op h => ?_,
    fun op hop hzero => ?_, fun hzero => ?_⟩
  · exact ⟨_, hresult op h, kind.numericKind?_value _,
      fun k => WholeKind.denotes_value_iff.trans WholeKind.eq_bmod_iff⟩
  · exact (hoperate op).trans (if_pos ⟨hop, hzero⟩)
  · refine ⟨_, _, _, m.tmod n, hresult .divide fun _ => hzero, kind.operate_multiply _ n,
      hresult .remainder fun _ => hzero, ?_, WholeKind.denotes_value (WholeKind.holds_tmod hm n),
      tmod_sign m n, natAbs_tmod_lt m hzero⟩
    rw [WholeKind.operate_add]
    exact congrArg (Except.ok ∘ kind.value) (Int.tdiv_mul_add_tmod m n)

/-- The least byte is reconstructed from its quotient by -1, which no byte is. -/
theorem division_reconstructs_least_byte :
    (Value.byte (-128)).numericKind? = some WholeKind.byte.numeric ∧
      (Value.byte (-1)).numericKind? = some WholeKind.byte.numeric ∧
      ∃ quotient product remainder,
        WholeKind.byte.operate .divide (.byte (-128)) (.byte (-1)) = .ok quotient ∧
        WholeKind.byte.operate .multiply quotient (.byte (-1)) = .ok product ∧
        WholeKind.byte.operate .remainder (.byte (-128)) (.byte (-1)) = .ok remainder ∧
        WholeKind.byte.operate .add product remainder = .ok (.byte (-128)) := by
  refine ⟨rfl, rfl, ?_⟩
  obtain ⟨-, m, n, -, hn, -, -, hreconstructs⟩ :=
    division_reconstructs .byte (.byte (-128)) (.byte (-1)) rfl rfl
  obtain rfl : (-1 : Int8).toInt = n := hn
  obtain ⟨quotient, product, remainder, -, hquotient, hproduct, hremainder, hsum, -⟩ :=
    hreconstructs (by decide)
  exact ⟨quotient, product, remainder, hquotient, hproduct, hremainder, hsum⟩

end RuleExpr

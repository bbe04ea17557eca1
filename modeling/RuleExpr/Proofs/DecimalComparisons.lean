import Mathlib.Algebra.Group.Nat.Defs
import Mathlib.Algebra.Ring.Int.Defs
import RuleExpr.Comparison

/-!
# Loose Comparisons of Decimals

Every decimal is a whole number of ticks of the smallest unit that a decimal can have, so what its
operations do can be said in whole numbers.  A difference is exact as long as it is in bounds, and
where it is not, both the difference and what is kept of it are larger than any unit.  A loose
comparison thus holds exactly when the difference of the numbers says so against the unit of its
first operand.

"Less" and "less or equal" exchange the operands, and with them the unit.  Where the difference
lies between the two units the comparisons contradict each other: two decimals are equal in one
order only, and may at the same time be less, or none of the three.  For all other pairs they are
consistent.
-/

namespace RuleExpr.Number.Decimal

variable {x y d : Decimal} {negative : Bool} {m scale : Nat}

/-- The number denoted, counted in the smallest unit of a decimal. -/
def ticks (x : Decimal) : Int := x.unitsAt maxScale

/-- The unit in the last place, in ticks. -/
def unit (x : Decimal) : Nat := 10 ^ (maxScale - x.scale)

/-- The number one, in ticks.  No unit in the last place is larger. -/
def oneInTicks : Nat := 10 ^ maxScale

theorem unit_pos (x : Decimal) : 0 < x.unit := Nat.pow_pos (by decide)

theorem unit_le (x : Decimal) : x.unit ≤ oneInTicks :=
  Nat.pow_le_pow_right (by decide) (Nat.sub_le _ _)

theorem ticks_eq (x : Decimal) : x.ticks = x.signedMantissa * x.unit := by
  rw [unit, Int.natCast_pow]
  rfl

theorem ticks_ulp (x : Decimal) : x.ulp.ticks = x.unit := by
  rw [ticks_eq]
  exact Int.one_mul _

/-- Ticks by way of a scale that holds the number exactly. -/
theorem ticks_of_scale (hx : x.scale ≤ scale) (hscale : scale ≤ maxScale) :
    x.ticks = x.unitsAt scale * 10 ^ (maxScale - scale) := by
  rw [ticks, unitsAt, unitsAt, Int.mul_assoc, ← Int.pow_add]
  congr 2
  omega

theorem ticks_neg (x : Decimal) : x.neg.ticks = -x.ticks := by
  have hsigned : x.neg.signedMantissa = -x.signedMantissa := by
    unfold signedMantissa neg
    cases x.negative <;> simp
  rw [ticks_eq, ticks_eq, hsigned, Int.neg_mul]
  rfl

/-- The number without its sign, in ticks. -/
def magnitude (x : Decimal) : Nat := x.mantissa * x.unit

theorem ticks_eq_magnitude (x : Decimal) :
    x.ticks = if x.negative then -(x.magnitude : Int) else x.magnitude := by
  rw [ticks_eq, signedMantissa, magnitude, Int.natCast_mul]
  split
  · exact Int.neg_mul _ _
  · rfl

theorem natAbs_ticks (x : Decimal) : x.ticks.natAbs = x.magnitude := by
  rw [ticks_eq_magnitude]
  split <;> omega

theorem ticks_abs (x : Decimal) : x.abs.ticks = x.ticks.natAbs := by
  rw [natAbs_ticks, ticks_eq_magnitude]
  rfl

theorem ticks_of_isZero (h : x.isZero) : x.ticks = 0 := by
  have hzero : x.mantissa = 0 := beq_iff_eq.1 h
  rw [ticks_eq_magnitude, magnitude, hzero, Nat.zero_mul]
  split <;> rfl

theorem compare_mul_right {a b k : Int} (hk : 0 < k) :
    Ord.compare (a * k) (b * k) = Ord.compare a b := by
  cases hab : Ord.compare a b with
  | lt => exact Int.compare_eq_lt.2 (Int.mul_lt_mul_of_pos_right (Int.compare_eq_lt.1 hab) hk)
  | eq => exact Int.compare_eq_eq.2 (by rw [Int.compare_eq_eq.1 hab])
  | gt => exact Int.compare_eq_gt.2 (Int.mul_lt_mul_of_pos_right (Int.compare_eq_gt.1 hab) hk)

theorem compare_eq (x y : Decimal) : x.compare y = Ord.compare x.ticks y.ticks := by
  have hscale : max x.scale y.scale ≤ maxScale := Nat.max_le.2 ⟨x.scale_le, y.scale_le⟩
  rw [ticks_of_scale (Nat.le_max_left _ _) hscale, ticks_of_scale (Nat.le_max_right _ _) hscale,
    compare_mul_right (Int.pow_pos (by decide))]
  rfl

theorem gt_iff : x.gt y = true ↔ y.ticks < x.ticks := by
  rw [gt, compare_eq, beq_iff_eq, Int.compare_eq_gt]

theorem le_iff : x.le y = true ↔ x.ticks ≤ y.ticks := by
  rw [le, compare_eq, bne_iff_ne, ne_eq, Int.compare_eq_gt, Int.not_lt]

theorem le_roundHalfEven (numerator denominator : Nat) (sticky : Bool) :
    numerator / denominator ≤ roundHalfEven numerator denominator sticky := by
  unfold roundHalfEven
  simp only
  split
  · exact Nat.le_succ _
  · exact Nat.le_refl _

theorem roundHalfEven_one (numerator : Nat) : roundHalfEven numerator 1 false = numerator := by
  simp [roundHalfEven, Nat.mod_one]

/-- Digits are dropped while the rest is still out of bounds. -/
theorem limit_le_of_excessDigits (h : limit ≤ m) :
    ∃ digits, excessDigits m = digits + 1 ∧ limit ≤ m / 10 ^ digits := by
  fun_induction excessDigits m with
  | case1 m hlt => exact absurd h (Nat.not_le.2 hlt)
  | case2 m _ ih =>
    by_cases hrest : limit ≤ m / 10
    · obtain ⟨digits, hdigits, hle⟩ := ih hrest
      refine ⟨digits + 1, by rw [hdigits], ?_⟩
      rwa [Nat.pow_succ', ← Nat.div_div_eq_div_mul]
    · refine ⟨0, ?_, by rwa [Nat.pow_zero, Nat.div_one]⟩
      rw [excessDigits, if_pos (Nat.not_le.1 hrest)]

/-- A rounded mantissa is not far below the limit. -/
theorem limit_div_le_rounded (h : limit ≤ m) :
    limit / 10 ≤ roundHalfEven m (10 ^ excessDigits m) false := by
  obtain ⟨digits, hdigits, hle⟩ := limit_le_of_excessDigits h
  calc limit / 10 ≤ m / 10 ^ digits / 10 := Nat.div_le_div_right hle
    _ = m / 10 ^ excessDigits m := by rw [hdigits, Nat.div_div_eq_div_mul, ← Nat.pow_succ]
    _ ≤ _ := le_roundHalfEven _ _ _

theorem ofParts?_eq_some (h : ofParts? negative m scale = some d) :
    d.negative = negative ∧ d.mantissa = m ∧ d.scale = scale := by
  unfold ofParts? at h
  split at h
  · cases h
    exact ⟨rfl, rfl, rfl⟩
  · cases h

theorem fit_of_lt (negative : Bool) (hscale : scale ≤ maxScale) (h : m < limit) :
    ∃ d, fit negative m scale = some d ∧ d.negative = negative ∧ d.mantissa = m ∧
      d.scale = scale := by
  have hdrop : max (excessDigits m) (scale - maxScale) = 0 := by
    rw [excessDigits, if_pos h, Nat.sub_eq_zero_of_le hscale, Nat.max_self]
  refine ⟨⟨negative, m, scale, h, hscale⟩, ?_, rfl, rfl, rfl⟩
  unfold fit
  simp only [hdrop, Nat.not_lt_zero, if_false, Nat.pow_zero, roundHalfEven_one, settle, if_pos h,
    Nat.sub_zero]
  exact dif_pos ⟨h, hscale⟩

theorem settle_of_le (h : limit / 10 ≤ m) (hd : settle negative m scale = some d) :
    d.negative = negative ∧ limit / 10 ≤ d.mantissa ∧ d.scale ≤ scale := by
  unfold settle at hd
  split at hd
  case isTrue =>
    obtain ⟨hnegative, hmantissa, hscale⟩ := ofParts?_eq_some hd
    exact ⟨hnegative, hmantissa ▸ h, Nat.le_of_eq hscale⟩
  case isFalse hlimit =>
    split at hd
    case isTrue => cases hd
    case isFalse =>
      obtain ⟨hnegative, hmantissa, hscale⟩ := ofParts?_eq_some hd
      refine ⟨hnegative, ?_, by omega⟩
      rw [hmantissa]
      exact Nat.le_trans (Nat.div_le_div_right (Nat.not_lt.1 hlimit)) (le_roundHalfEven _ _ _)

/-- What is kept of a number that is out of bounds is larger than one. -/
theorem fit_of_le (hscale : scale ≤ maxScale) (h : limit ≤ m)
    (hd : fit negative m scale = some d) : d.negative = negative ∧ oneInTicks < d.magnitude := by
  obtain ⟨digits, hdigits, -⟩ := limit_le_of_excessDigits h
  unfold fit at hd
  rw [Nat.sub_eq_zero_of_le hscale, Nat.max_eq_left (Nat.zero_le _)] at hd
  simp only at hd
  split at hd
  case isTrue => cases hd
  case isFalse hdrop =>
    obtain ⟨hnegative, hmantissa, hplaces⟩ := settle_of_le (limit_div_le_rounded h) hd
    refine ⟨hnegative, ?_⟩
    have hunit : 10 ^ 1 ≤ d.unit := Nat.pow_le_pow_right (by decide) (by omega)
    calc oneInTicks < limit / 10 * 10 ^ 1 := by decide
      _ ≤ d.mantissa * d.unit := Nat.mul_le_mul hmantissa hunit

/-- What is kept of a number of ticks: the number itself, or something else if it is larger than
one, and then that is larger than one as well and of the same sign. -/
def Keeps (n : Int) (d? : Option Decimal) : Prop :=
  (∃ d, d? = some d ∧ d.ticks = n) ∨
    (oneInTicks < n ∧ ∀ d ∈ d?, oneInTicks < d.ticks) ∨
    (n < -oneInTicks ∧ ∀ d ∈ d?, d.ticks < -oneInTicks)

theorem fit_keeps (n : Int) (hscale : scale ≤ maxScale) :
    Keeps (n * 10 ^ (maxScale - scale)) (fit (decide (n < 0)) n.natAbs scale) := by
  by_cases hlimit : n.natAbs < limit
  · obtain ⟨d, hd, hnegative, hmantissa, rfl⟩ := fit_of_lt (decide (n < 0)) hscale hlimit
    -- Below the limit the number is kept as it is.
    refine .inl ⟨d, hd, ?_⟩
    have hsigned : d.signedMantissa = n := by
      rw [signedMantissa, hnegative, hmantissa]
      by_cases hn : n < 0
      · rw [if_pos (decide_eq_true hn)]
        omega
      · rw [if_neg (mt of_decide_eq_true hn)]
        omega
    rw [ticks, unitsAt, hsigned]
  · -- From there on it may be rounded or refused, but it keeps its sign and stays beyond one.
    have hunit : (0 : Int) < 10 ^ (maxScale - scale) := Int.pow_pos (by decide)
    have hone : oneInTicks < limit := by decide
    have hkept : ∀ d ∈ fit (decide (n < 0)) n.natAbs scale,
        d.negative = decide (n < 0) ∧ oneInTicks < d.magnitude := fun d hd =>
      fit_of_le hscale (Nat.not_lt.1 hlimit) hd
    by_cases hn : n < 0
    · refine .inr (.inr ⟨?_, fun d hd => ?_⟩)
      · have hle := Int.mul_le_mul_of_nonneg_left (show (1 : Int) ≤ _ from hunit)
          (show 0 ≤ -n by omega)
        simp only [Int.neg_mul, Int.mul_one] at hle
        omega
      · obtain ⟨hnegative, hfar⟩ := hkept d hd
        rw [ticks_eq_magnitude, hnegative, if_pos (decide_eq_true hn)]
        omega
    · refine .inr (.inl ⟨?_, fun d hd => ?_⟩)
      · have hle := Int.mul_le_mul_of_nonneg_left (show (1 : Int) ≤ _ from hunit)
          (show 0 ≤ n by omega)
        omega
      · obtain ⟨hnegative, hfar⟩ := hkept d hd
        rw [ticks_eq_magnitude, hnegative, if_neg (mt of_decide_eq_true hn)]
        omega

theorem add_keeps (x y : Decimal) : Keeps (x.ticks + y.ticks) (x.add y) := by
  unfold add
  split
  case isTrue hx =>
    exact .inl ⟨y, rfl, by rw [ticks_of_isZero hx, Int.zero_add]⟩
  case isFalse =>
    split
    case isTrue hy => exact .inl ⟨x, rfl, by rw [ticks_of_isZero hy, Int.add_zero]⟩
    case isFalse =>
      have hscale : max x.scale y.scale ≤ maxScale := Nat.max_le.2 ⟨x.scale_le, y.scale_le⟩
      rw [ticks_of_scale (Nat.le_max_left _ _) hscale,
        ticks_of_scale (Nat.le_max_right _ _) hscale, ← Int.add_mul]
      exact fit_keeps _ hscale

theorem sub_keeps (x y : Decimal) : Keeps (x.ticks - y.ticks) (x.sub y) := by
  unfold sub
  split
  case isTrue h =>
    obtain ⟨hx, hy⟩ := Bool.and_eq_true_iff.1 h
    exact .inl ⟨y, rfl, by rw [ticks_of_isZero hx, ticks_of_isZero hy, Int.sub_zero]⟩
  case isFalse =>
    rw [Int.sub_eq_add_neg, ← ticks_neg]
    exact add_keeps x y.neg

theorem Keeps.any_le_ulp {n : Int} {d? : Option Decimal} (h : Keeps n d?) (x : Decimal) :
    d?.any (fun d => d.abs.le x.ulp) = true ↔ n.natAbs ≤ x.unit := by
  have hunit := x.unit_le
  cases d? with
  | none =>
    rw [Option.any_none]
    refine ⟨fun h => absurd h Bool.false_ne_true, fun hle => ?_⟩
    rcases h with ⟨d, hd, -⟩ | ⟨hfar, -⟩ | ⟨hfar, -⟩
    · cases hd
    · omega
    · omega
  | some d =>
    rw [Option.any_some, le_iff, ticks_abs, ticks_ulp]
    rcases h with ⟨_, hd, rfl⟩ | ⟨hfar, hkept⟩ | ⟨hfar, hkept⟩
    · obtain rfl := Option.some.inj hd
      omega
    · have hd := hkept d rfl
      omega
    · have hd := hkept d rfl
      omega

theorem Keeps.all_gt_ulp {n : Int} {d? : Option Decimal} (h : Keeps n d?) (x : Decimal)
    (hn : 0 < n) :
    d?.all (fun d => d.gt x.ulp) = true ↔ x.unit < n := by
  have hunit := x.unit_le
  cases d? with
  | none =>
    rcases h with ⟨d, hd, -⟩ | ⟨hfar, -⟩ | ⟨hfar, -⟩
    · cases hd
    · exact ⟨fun _ => by omega, fun _ => Option.all_none⟩
    · omega
  | some d =>
    rw [Option.all_some, gt_iff, ticks_ulp]
    rcases h with ⟨_, hd, rfl⟩ | ⟨hfar, hkept⟩ | ⟨hfar, hkept⟩
    · obtain rfl := Option.some.inj hd
      omega
    · have hd := hkept d rfl
      omega
    · omega

theorem looseEq_iff :
    Comparable.looseEq x y = true ↔ (x.ticks - y.ticks).natAbs ≤ x.unit :=
  (sub_keeps x y).any_le_ulp x

theorem looseGt_iff : Comparable.looseGt x y = true ↔ x.unit < x.ticks - y.ticks := by
  have hunit := x.unit_pos
  change (x.gt y && (x.sub y).all fun d => d.gt x.ulp) = true ↔ _
  rw [Bool.and_eq_true, gt_iff]
  constructor
  · rintro ⟨hgt, hall⟩
    exact ((sub_keeps x y).all_gt_ulp x (by omega)).1 hall
  · intro h
    exact ⟨by omega, ((sub_keeps x y).all_gt_ulp x (by omega)).2 h⟩

theorem looseGe_iff : Comparable.looseGe x y = true ↔ -(x.unit : Int) ≤ x.ticks - y.ticks := by
  change (Comparable.looseGt x y || Comparable.looseEq x y) = true ↔ _
  rw [Bool.or_eq_true, looseGt_iff, looseEq_iff]
  omega

/-- The difference lies between the two units: it is forgiven in the last place of one of the
operands but not of the other. -/
def UnitsDisagree (x y : Decimal) : Prop :=
  min x.unit y.unit < (x.ticks - y.ticks).natAbs ∧
    (x.ticks - y.ticks).natAbs ≤ max x.unit y.unit

end RuleExpr.Number.Decimal

namespace RuleExpr

open Number Decimal Comparison

/-- Loose comparisons of decimals by the difference of the numbers. -/
theorem loose_decimals_iff (x y : Decimal) :
    (eq.loose x y = true ↔ (x.ticks - y.ticks).natAbs ≤ x.unit) ∧
    (gt.loose x y = true ↔ x.unit < x.ticks - y.ticks) ∧
    (ge.loose x y = true ↔ -(x.unit : Int) ≤ x.ticks - y.ticks) ∧
    (lt.loose x y = true ↔ y.unit < y.ticks - x.ticks) ∧
    (le.loose x y = true ↔ -(y.unit : Int) ≤ y.ticks - x.ticks) :=
  ⟨looseEq_iff, looseGt_iff, looseGe_iff, looseGt_iff, looseGe_iff⟩

theorem count_true_of_iff {a b c : Bool} {p q r : Prop} [Decidable p] [Decidable q] [Decidable r]
    (ha : a = true ↔ p) (hb : b = true ↔ q) (hc : c = true ↔ r) :
    [a, b, c].count true =
      (if p then 1 else 0) + (if q then 1 else 0) + (if r then 1 else 0) := by
  simp only [← ha, ← hb, ← hc]
  cases a <;> cases b <;> cases c <;> rfl

/-- The loose comparisons of two decimals agree with each other exactly where the units of the two
do: equality is symmetric, one of "less", "equal" and "greater" holds, and "less or equal" and
"greater or equal" are the negations of "greater" and "less". -/
theorem loose_decimals_consistent_iff (x y : Decimal) :
    (eq.loose x y = eq.loose y x ↔ ¬UnitsDisagree x y) ∧
    ([lt.loose x y, eq.loose x y, gt.loose x y].count true = 1 ↔
      ¬(UnitsDisagree x y ∧ x.ticks < y.ticks)) ∧
    ((le.loose x y = !gt.loose x y) ↔ ¬(UnitsDisagree x y ∧ y.ticks < x.ticks)) ∧
    ((ge.loose x y = !lt.loose x y) ↔ ¬(UnitsDisagree x y ∧ x.ticks < y.ticks)) := by
  obtain ⟨heq, hgt, hge, hlt, hle⟩ := loose_decimals_iff x y
  obtain ⟨heq', -⟩ := loose_decimals_iff y x
  have hx := x.unit_pos
  have hy := y.unit_pos
  unfold UnitsDisagree
  refine ⟨?_, ?_, ?_, ?_⟩
  · rw [Bool.eq_iff_iff, heq, heq']
    omega
  · rw [count_true_of_iff hlt heq hgt]
    split <;> split <;> split <;> omega
  · rw [Bool.eq_iff_iff, Bool.not_eq_true', ← Bool.not_eq_true, hle, hgt]
    omega
  · rw [Bool.eq_iff_iff, Bool.not_eq_true', ← Bool.not_eq_true, hge, hlt]
    omega

/-- One is equal to one and a half and less than it at once, and one and a half is not equal to
one. -/
theorem one_loosely_equals_more :
    ∃ x y : Decimal, (x.mantissa, x.scale) = (1, 0) ∧ (y.mantissa, y.scale) = (15, 1) ∧
      eq.loose x y = true ∧ lt.loose x y = true ∧ ge.loose x y = true ∧ eq.loose y x = false :=
  ⟨⟨false, 1, 0, by decide, by decide⟩, ⟨false, 15, 1, by decide, by decide⟩, rfl, rfl,
    by decide +kernel, by decide +kernel, by decide +kernel, by decide +kernel⟩

end RuleExpr

import RuleExpr.Proofs.DecimalComparisons
import RuleExpr.Value.Convert
import Mathlib.Data.Int.ModEq

/-!
# Whole Numbers

One whole number can be a value of several kinds.  `Value.Denotes` says which number a value is, and
`WholeKind.value` is the value of a kind that is congruent to a number modulo the size of the kind.
The unbounded kind has size 0, so that each of its values is congruent to one number only.

A conversion to a bounded kind goes through a 64-bit integer.  A number that fits in it is reduced
modulo the size of the kind as if the detour were not there, since that size divides the one of the
64-bit integers; a number that does not fit has no conversion.
-/

namespace RuleExpr

open Number

inductive WholeKind where
  | byte
  | short
  | int
  | long
  | bigInteger
  deriving DecidableEq

namespace WholeKind

def numeric : WholeKind → NumericKind
  | byte => .byte
  | short => .short
  | int => .int
  | long => .long
  | bigInteger => .bigInteger

/-- How many values the kind has, and 0 for the unbounded kind. -/
def size : WholeKind → Nat
  | byte => Int8.size
  | short => Int16.size
  | int => Int32.size
  | long => Int64.size
  | bigInteger => 0

/-- The numbers of the kind: those of the signed range, or all. -/
def Holds (kind : WholeKind) (n : Int) : Prop :=
  kind = bigInteger ∨ -(kind.size : Int) ≤ n * 2 ∧ n * 2 < kind.size

instance (kind : WholeKind) (n : Int) : Decidable (kind.Holds n) :=
  inferInstanceAs (Decidable (_ ∨ _))

/-- The value of the kind that is congruent to a number. -/
def value : WholeKind → Int → Value
  | byte, n => .byte (.ofInt n)
  | short, n => .short (.ofInt n)
  | int, n => .int (.ofInt n)
  | long, n => .long (.ofInt n)
  | bigInteger, n => .bigInteger n

end WholeKind

/-- The value is the whole number `n`; a character is its code. -/
def Value.Denotes : Value → Int → Prop
  | .byte v, n => v.toInt = n
  | .short v, n => v.toInt = n
  | .char v, n => v.toNat = n
  | .int v, n => v.toInt = n
  | .long v, n => v.toInt = n
  | .bigInteger v, n => v = n
  | .bigDecimal v, n => v.ticks = n * Decimal.oneInTicks
  | _, _ => False

variable {v w : Value} {kind target : WholeKind} {m n : Int}

namespace WholeKind

theorem size_pos (h : kind ≠ bigInteger) : 0 < kind.size := by
  cases kind <;> first | decide | exact absurd rfl h

theorem holds_iff (h : kind ≠ bigInteger) :
    kind.Holds n ↔ -(kind.size : Int) ≤ n * 2 ∧ n * 2 < kind.size :=
  or_iff_right h

theorem bmod_of_holds (h : kind.Holds n) : n.bmod kind.size = n := by
  rcases h with rfl | ⟨hlow, hhigh⟩
  · exact Int.bmod_zero
  · exact Int.bmod_eq_of_le_mul_two hlow hhigh

theorem holds_bmod (kind : WholeKind) (n : Int) : kind.Holds (n.bmod kind.size) := by
  by_cases hkind : kind = bigInteger
  · exact .inl hkind
  · have hlow := Int.le_bmod (x := n) (size_pos hkind)
    have hhigh := Int.bmod_lt (x := n) (size_pos hkind)
    exact .inr ⟨by omega, by omega⟩

theorem toInt_ofInt_of_holds (h : long.Holds n) : (Int64.ofInt n).toInt = n :=
  Int64.toInt_ofInt.trans (bmod_of_holds h)

theorem bmod_modEq (kind : WholeKind) (n : Int) : n.bmod kind.size ≡ n [ZMOD kind.size] :=
  Int.modEq_iff_dvd.2 Int.dvd_self_sub_bmod

/-- A kind holds one number of each residue class. -/
theorem eq_of_modEq (hm : kind.Holds m) (hn : kind.Holds n) (h : m ≡ n [ZMOD kind.size]) :
    m = n := by
  rw [← bmod_of_holds hm, ← bmod_of_holds hn, ← Int.emod_bmod, h, Int.emod_bmod]

theorem eq_bmod_iff : m = n.bmod kind.size ↔ kind.Holds m ∧ m ≡ n [ZMOD kind.size] := by
  constructor
  · rintro rfl
    exact ⟨kind.holds_bmod n, kind.bmod_modEq n⟩
  · rintro ⟨hm, hmod⟩
    exact eq_of_modEq hm (kind.holds_bmod n) (hmod.trans (kind.bmod_modEq n).symm)

theorem numericKind?_value (kind : WholeKind) (n : Int) :
    (kind.value n).numericKind? = some kind.numeric := by
  cases kind <;> rfl

theorem denotes_value_iff : (kind.value n).Denotes m ↔ m = n.bmod kind.size := by
  rw [eq_comm]
  cases kind with
  | byte => exact Int8.toInt_ofInt ▸ Iff.rfl
  | short => exact Int16.toInt_ofInt ▸ Iff.rfl
  | int => exact Int32.toInt_ofInt ▸ Iff.rfl
  | long => exact Int64.toInt_ofInt ▸ Iff.rfl
  | bigInteger => exact Int.bmod_zero.symm ▸ Iff.rfl

theorem denotes_value (h : kind.Holds n) : (kind.value n).Denotes n :=
  denotes_value_iff.2 (bmod_of_holds h).symm

/-- Numbers of one residue class have one value. -/
theorem value_eq_of_modEq (h : m ≡ n [ZMOD kind.size]) : kind.value m = kind.value n := by
  have hbmod : m.bmod kind.size = n.bmod kind.size := by rw [← Int.emod_bmod, h, Int.emod_bmod]
  cases kind with
  | byte =>
    refine congrArg Value.byte (Int8.toInt_inj.1 ?_)
    rwa [Int8.toInt_ofInt, Int8.toInt_ofInt]
  | short =>
    refine congrArg Value.short (Int16.toInt_inj.1 ?_)
    rwa [Int16.toInt_ofInt, Int16.toInt_ofInt]
  | int =>
    refine congrArg Value.int (Int32.toInt_inj.1 ?_)
    rwa [Int32.toInt_ofInt, Int32.toInt_ofInt]
  | long =>
    refine congrArg Value.long (Int64.toInt_inj.1 ?_)
    rwa [Int64.toInt_ofInt, Int64.toInt_ofInt]
  | bigInteger => exact congrArg Value.bigInteger (by simpa only [size, Int.bmod_zero] using hbmod)

theorem holds_of_bmod (h : n.bmod kind.size = n) : kind.Holds n := h ▸ kind.holds_bmod n

/-- Every value of a kind is the value of a number of the kind. -/
theorem exists_eq_value (h : v.numericKind? = some kind.numeric) :
    ∃ n, kind.Holds n ∧ v = kind.value n := by
  cases kind with
  | byte =>
    cases v with
    | byte x =>
      exact ⟨x.toInt, holds_of_bmod x.toInt_bmod_size, congrArg Value.byte x.ofInt_toInt.symm⟩
    | _ => cases h
  | short =>
    cases v with
    | short x =>
      exact ⟨x.toInt, holds_of_bmod x.toInt_bmod_size, congrArg Value.short x.ofInt_toInt.symm⟩
    | _ => cases h
  | int =>
    cases v with
    | int x =>
      exact ⟨x.toInt, holds_of_bmod x.toInt_bmod_size, congrArg Value.int x.ofInt_toInt.symm⟩
    | _ => cases h
  | long =>
    cases v with
    | long x =>
      exact ⟨x.toInt, holds_of_bmod x.toInt_bmod_size, congrArg Value.long x.ofInt_toInt.symm⟩
    | _ => cases h
  | bigInteger =>
    cases v with
    | bigInteger x => exact ⟨x, .inl rfl, rfl⟩
    | _ => cases h

end WholeKind

namespace Number.Decimal

variable {x : Decimal}

theorem oneInTicks_eq (x : Decimal) : oneInTicks = 10 ^ x.scale * x.unit := by
  rw [unit, ← Nat.pow_add, oneInTicks]
  congr 1
  exact (Nat.add_sub_cancel' x.scale_le).symm

/-- A decimal that is a whole number has it as its whole part. -/
theorem truncate_of_ticks (h : x.ticks = n * oneInTicks) : x.truncate = n := by
  have hmantissa : x.mantissa = n.natAbs * 10 ^ x.scale := by
    have hmagnitude : x.magnitude = n.natAbs * oneInTicks := by
      rw [← natAbs_ticks, h, Int.natAbs_mul, Int.natAbs_natCast]
    rw [oneInTicks_eq x, magnitude, ← Nat.mul_assoc] at hmagnitude
    exact Nat.eq_of_mul_eq_mul_right x.unit_pos hmagnitude
  -- The whole part drops no digit other than zero.
  have hwhole : x.mantissa / 10 ^ x.scale = n.natAbs := by
    rw [hmantissa, Nat.mul_div_cancel _ (Nat.pow_pos (by decide))]
  have hone : (0 : Int) < oneInTicks := by decide
  rw [ticks_eq_magnitude] at h
  rw [truncate]
  simp only [hwhole]
  split at h
  case isTrue hnegative =>
    have hn : ¬0 < n := fun hn => by
      have := Int.mul_pos hn hone
      omega
    rw [if_pos hnegative]
    omega
  case isFalse hnegative =>
    have hn : ¬n < 0 := fun hn => by
      have := Int.mul_neg_of_neg_of_pos hn hone
      omega
    rw [if_neg hnegative]
    omega

/-- Whole numbers in bounds are decimals. -/
theorem exists_ofInt? (h : n.natAbs < limit) :
    ∃ d, ofInt? n = some d ∧ d.ticks = n * oneInTicks := by
  refine ⟨⟨_, n.natAbs, 0, h, by decide⟩, dif_pos ⟨h, by decide⟩, ?_⟩
  have hsigned : (if (decide (n < 0) && n.natAbs != 0) = true then -(n.natAbs : Int)
      else n.natAbs) = n := by
    split
    case isTrue hnegative =>
      rw [Bool.and_eq_true, decide_eq_true_eq] at hnegative
      omega
    case isFalse hnegative =>
      rw [Bool.and_eq_true, decide_eq_true_eq, bne_iff_ne] at hnegative
      omega
  rw [ticks_eq, signedMantissa, hsigned]
  rfl

end Number.Decimal

namespace Value

/-- The value is a number within 64 bits that converts by way of its 64-bit integer. -/
structure IsWord (v : Value) (n : Int) : Prop where
  fits : WholeKind.long.Holds n
  toInt64?_eq : v.toInt64? = some (.ofInt n)
  toInt?_eq : v.toInt? = v.toInt64?.map (·.toInt)
  toDecimal?_eq : v.toDecimal? = v.toInt64?.bind fun word => Decimal.ofInt? word.toInt

theorem code_lt (c : Char) : c.toNat < 0x110000 := by
  rcases c.valid with h | ⟨-, h⟩
  · exact Nat.lt_trans h (by decide)
  · exact h

theorem isWord_of_toInt64? {word : Int64} (hword : v.toInt64? = some word) (hn : word.toInt = n)
    (hwhole : v.toInt? = v.toInt64?.map (·.toInt))
    (hdecimal : v.toDecimal? = v.toInt64?.bind fun word => Decimal.ofInt? word.toInt) :
    v.IsWord n where
  fits := hn ▸ WholeKind.holds_of_bmod word.toInt_bmod_size
  toInt64?_eq := by rw [hword, ← hn, Int64.ofInt_toInt]
  toInt?_eq := hwhole
  toDecimal?_eq := hdecimal

namespace Denotes

theorem isNull (h : v.Denotes n) : v.isNull = false := by
  cases v <;> first | rfl | cases h

theorem cases (h : v.Denotes n) :
    v = .bigInteger n ∨ (∃ x, v = .bigDecimal x ∧ x.ticks = n * Decimal.oneInTicks) ∨
      v.IsWord n := by
  cases v with
  | bigInteger x => exact .inl (congrArg bigInteger h)
  | bigDecimal x => exact .inr (.inl ⟨x, rfl, h⟩)
  | byte x => exact .inr (.inr (isWord_of_toInt64? rfl (x.toInt_toInt64.trans h) rfl rfl))
  | short x => exact .inr (.inr (isWord_of_toInt64? rfl (x.toInt_toInt64.trans h) rfl rfl))
  | int x => exact .inr (.inr (isWord_of_toInt64? rfl (x.toInt_toInt64.trans h) rfl rfl))
  | long x => exact .inr (.inr (isWord_of_toInt64? rfl h rfl rfl))
  | char c =>
    have hcode : c.toNat < 2 ^ 63 := Nat.lt_trans (code_lt c) (by decide)
    exact .inr (.inr (isWord_of_toInt64? rfl ((Int64.toInt_ofNat_of_lt hcode).trans h) rfl rfl))
  | _ => cases h

theorem inRange_eq (n : Int) :
    toInt64?.inRange n = if WholeKind.long.Holds n then some (.ofInt n) else none := by
  rw [toInt64?.inRange]
  refine if_congr ?_ rfl rfl
  rw [WholeKind.holds_iff (by decide)]
  simp only [WholeKind.size, Int64.size]
  omega

/-- The 64-bit integer of a whole number is that number, if it fits. -/
theorem toInt64?_eq (h : v.Denotes n) :
    v.toInt64? = if WholeKind.long.Holds n then some (.ofInt n) else none := by
  rcases h.cases with rfl | ⟨x, rfl, hx⟩ | hword
  · exact inRange_eq n
  · rw [toInt64?, Decimal.truncate_of_ticks hx]
    exact inRange_eq n
  · rw [hword.toInt64?_eq, if_pos hword.fits]

/-- Every whole number is an unbounded integer. -/
theorem toInt?_eq (h : v.Denotes n) : v.toInt? = some n := by
  rcases h.cases with rfl | ⟨x, rfl, hx⟩ | hword
  · rfl
  · exact congrArg some (Decimal.truncate_of_ticks hx)
  · rw [hword.toInt?_eq, hword.toInt64?_eq, Option.map_some,
      WholeKind.toInt_ofInt_of_holds hword.fits]

/-- A whole number within 64 bits is a decimal. -/
theorem exists_toDecimal? (h : v.Denotes n) (hn : WholeKind.long.Holds n) :
    ∃ d, v.toDecimal? = some d ∧ (bigDecimal d).Denotes n := by
  have hlimit : n.natAbs < Decimal.limit := by
    rw [WholeKind.holds_iff (by decide)] at hn
    simp only [WholeKind.size, Int64.size] at hn
    simp only [Decimal.limit]
    omega
  obtain ⟨d, hd, hticks⟩ := Decimal.exists_ofInt? hlimit
  rcases h.cases with rfl | ⟨x, rfl, hx⟩ | hword
  · exact ⟨d, hd, hticks⟩
  · exact ⟨x, rfl, hx⟩
  · refine ⟨d, ?_, hticks⟩
    rw [hword.toDecimal?_eq, hword.toInt64?_eq, Option.bind_some,
      WholeKind.toInt_ofInt_of_holds hword.fits, hd]

theorem convert_eq_ok {k : NumericKind} (h : v.Denotes n) (hw : v.numberAs? k = some w) :
    v.convert k = .ok w := by
  unfold convert
  rw [h.isNull]
  simp only [Bool.false_eq_true, if_false, hw]

theorem convert_eq_error {k : NumericKind} (h : v.Denotes n) (hw : v.numberAs? k = none) :
    v.convert k = .error (.invalidConversion v.render k.label) := by
  unfold convert
  rw [h.isNull]
  simp only [Bool.false_eq_true, if_false, hw]

/-- A whole number converts to the congruent value of a kind, if the kind is unbounded or the number
fits in 64 bits. -/
theorem convert_whole (h : v.Denotes n) (hn : target = .bigInteger ∨ WholeKind.long.Holds n) :
    v.convert target.numeric = .ok (target.value n) := by
  refine h.convert_eq_ok ?_
  rcases hn with rfl | hn
  · exact congrArg (Option.map bigInteger) h.toInt?_eq
  · have hword : v.toInt64? = some (.ofInt n) := by rw [h.toInt64?_eq, if_pos hn]
    cases target with
    | byte =>
      rw [WholeKind.numeric, numberAs?, hword, Option.map_some, Int64.toInt8_ofInt]
      rfl
    | short =>
      rw [WholeKind.numeric, numberAs?, hword, Option.map_some, Int64.toInt16_ofInt]
      rfl
    | int =>
      rw [WholeKind.numeric, numberAs?, hword, Option.map_some, Int64.toInt32_ofInt]
      rfl
    | long => exact congrArg (Option.map long) hword
    | bigInteger => exact congrArg (Option.map bigInteger) h.toInt?_eq

/-- A number that does not fit in 64 bits has no value of a bounded kind. -/
theorem convert_unfit (h : v.Denotes n) (htarget : target ≠ .bigInteger)
    (hn : ¬WholeKind.long.Holds n) :
    v.convert target.numeric =
      .error (.invalidConversion v.render target.numeric.label) := by
  refine h.convert_eq_error ?_
  have hword : v.toInt64? = none := by rw [h.toInt64?_eq, if_neg hn]
  cases target with
  | bigInteger => exact absurd rfl htarget
  | byte => exact congrArg (Option.map _) hword
  | short => exact congrArg (Option.map _) hword
  | int => exact congrArg (Option.map _) hword
  | long => exact congrArg (Option.map _) hword

theorem convert_decimal (h : v.Denotes n) (hn : WholeKind.long.Holds n) :
    ∃ d, v.convert .bigDecimal = .ok (.bigDecimal d) ∧ (bigDecimal d).Denotes n := by
  obtain ⟨d, hd, hdenotes⟩ := h.exists_toDecimal? hn
  exact ⟨d, h.convert_eq_ok (congrArg (Option.map bigDecimal) hd), hdenotes⟩

end Denotes

end Value

namespace WholeKind

theorem size_dvd_of_widens
    (h : target.numeric = kind.numeric ∨ kind.numeric.widensTo target.numeric) :
    kind.size ∣ target.size := by
  revert h
  cases kind <;> cases target <;> decide

/-- The kinds that a kind of whole numbers widens to, floating kinds apart. -/
theorem widens_cases {wider : NumericKind} (hexact : wider.isFloating = false)
    (h : wider = kind.numeric ∨ kind.numeric.widensTo wider) :
    wider = .bigDecimal ∨ ∃ target : WholeKind, wider = target.numeric ∧
      kind.size ∣ target.size := by
  cases wider with
  | byte => exact .inr ⟨byte, rfl, size_dvd_of_widens h⟩
  | short => exact .inr ⟨short, rfl, size_dvd_of_widens h⟩
  | int => exact .inr ⟨int, rfl, size_dvd_of_widens h⟩
  | long => exact .inr ⟨long, rfl, size_dvd_of_widens h⟩
  | bigInteger => exact .inr ⟨bigInteger, rfl, size_dvd_of_widens h⟩
  | bigDecimal => exact .inl rfl
  | char => rcases h with h | h <;> cases kind <;> cases h
  | float => cases hexact
  | double => cases hexact

theorem size_dvd_long (h : kind ≠ bigInteger) : kind.size ∣ long.size := by
  revert h
  cases kind <;> decide

/-- A kind whose size is a multiple holds more numbers. -/
theorem holds_of_dvd (h : kind.size ∣ target.size) (hn : kind.Holds n) : target.Holds n := by
  by_cases htarget : target = bigInteger
  · exact .inl htarget
  · have hpos := size_pos htarget
    have hle := Nat.le_of_dvd hpos h
    rcases hn with rfl | ⟨hlow, hhigh⟩
    · rw [Nat.eq_zero_of_zero_dvd h] at hpos
      exact absurd hpos (Nat.lt_irrefl 0)
    · exact .inr ⟨by omega, by omega⟩

theorem fits_of_holds (h : kind.Holds n) : kind = bigInteger ∨ long.Holds n := by
  by_cases hkind : kind = bigInteger
  · exact .inl hkind
  · exact .inr (holds_of_dvd (size_dvd_long hkind) h)

end WholeKind

/-- Reducing to a wider kind first makes no difference. -/
theorem WholeKind.convert_value {wider : WholeKind}
    (hfits : WholeKind.long.Holds (n.bmod wider.size)) (hwider : target.size ∣ wider.size) :
    (wider.value n).convert target.numeric = .ok (target.value n) := by
  have hdenotes : (wider.value n).Denotes (n.bmod wider.size) := denotes_value_iff.2 rfl
  rw [hdenotes.convert_whole (.inr hfits)]
  refine congrArg Except.ok (value_eq_of_modEq ?_)
  exact (wider.bmod_modEq n).of_dvd (Int.natCast_dvd_natCast.2 hwider)

/-- A detour over a wider kind does not change the value of a number that fits in 64 bits. -/
theorem Value.Denotes.convert_twice {wider : WholeKind} (h : v.Denotes n)
    (hn : WholeKind.long.Holds n) (hwider : target.size ∣ wider.size) :
    ∃ u, v.convert wider.numeric = .ok u ∧ u.convert target.numeric = .ok (target.value n) := by
  refine ⟨wider.value n, h.convert_whole (.inr hn), WholeKind.convert_value ?_ hwider⟩
  rcases WholeKind.fits_of_holds (wider.holds_bmod n) with rfl | hfits
  · rwa [WholeKind.size, Int.bmod_zero]
  · exact hfits

/-- Conversions of whole numbers.  To the same or a wider kind that is exact they keep the number,
and lead back to the value; to a decimal that is promised for numbers within 64 bits.  To a bounded
kind they give the only number of the kind that is congruent, also when taken in two steps, and fail
if the number does not fit in 64 bits, as only unbounded ones may not. -/
theorem whole_conversions_exact (kind : WholeKind) (v : Value)
    (hv : v.numericKind? = some kind.numeric) :
    ∃ n, v.Denotes n ∧ (kind ≠ .bigInteger → WholeKind.long.Holds n) ∧
      (∀ wider : NumericKind, wider.isFloating = false →
        (wider = kind.numeric ∨ kind.numeric.widensTo wider) →
        (wider = .bigDecimal → WholeKind.long.Holds n) →
        ∃ w, v.convert wider = .ok w ∧ w.numericKind? = some wider ∧ w.Denotes n ∧
          w.convert kind.numeric = .ok v) ∧
      ∀ target : WholeKind, target ≠ .bigInteger →
        (WholeKind.long.Holds n →
          ∃ w, v.convert target.numeric = .ok w ∧ w.numericKind? = some target.numeric ∧
            (∀ m, w.Denotes m ↔ target.Holds m ∧ m ≡ n [ZMOD target.size]) ∧
            ∀ between : NumericKind, between.isFloating = false →
              (between = target.numeric ∨ target.numeric.widensTo between) →
              ∃ u, v.convert between = .ok u ∧ u.convert target.numeric = .ok w) ∧
        (¬WholeKind.long.Holds n →
          v.convert target.numeric =
            .error (.invalidConversion v.render target.numeric.label)) := by
  obtain ⟨n, hn, rfl⟩ := WholeKind.exists_eq_value hv
  have hdenotes := WholeKind.denotes_value hn
  refine ⟨n, hdenotes, (WholeKind.fits_of_holds hn).resolve_left,
    fun wider hexact hwider hfits => ?_,
    fun target htarget => ⟨fun hfits => ?_, hdenotes.convert_unfit htarget⟩⟩
  · rcases WholeKind.widens_cases hexact hwider with rfl | ⟨target, rfl, hsize⟩
    · obtain ⟨d, hd, hdecimal⟩ := hdenotes.convert_decimal (hfits rfl)
      exact ⟨_, hd, rfl, hdecimal, hdecimal.convert_whole (.inr (hfits rfl))⟩
    · have htarget := WholeKind.holds_of_dvd hsize hn
      have hwide := WholeKind.denotes_value htarget
      exact ⟨_, hdenotes.convert_whole (WholeKind.fits_of_holds htarget),
        target.numericKind?_value n, hwide, hwide.convert_whole (WholeKind.fits_of_holds hn)⟩
  · refine ⟨_, hdenotes.convert_whole (.inr hfits), target.numericKind?_value n,
      fun m => WholeKind.denotes_value_iff.trans WholeKind.eq_bmod_iff,
      fun between hexact hbetween => ?_⟩
    rcases WholeKind.widens_cases hexact hbetween with rfl | ⟨wider, rfl, hsize⟩
    · obtain ⟨d, hd, hdecimal⟩ := hdenotes.convert_decimal hfits
      exact ⟨_, hd, hdecimal.convert_whole (.inr hfits)⟩
    · exact hdenotes.convert_twice hfits hsize

/-- The long 2 ^ 32 + 300 becomes the byte 44, directly and by way of the int 300. -/
theorem whole_conversions_exact_byte :
    (Value.long 4294967596).numericKind? = some WholeKind.long.numeric ∧
      ∃ w u, (Value.long 4294967596).convert .byte = .ok w ∧ w.Denotes 44 ∧
        (Value.long 4294967596).convert .int = .ok u ∧ u.convert .byte = .ok w := by
  refine ⟨rfl, ?_⟩
  obtain ⟨n, hn, hfits, -, hnarrow⟩ := whole_conversions_exact .long (.long 4294967596) rfl
  obtain rfl : (4294967596 : Int64).toInt = n := hn
  obtain ⟨w, hw, -, hdenotes, htwice⟩ := (hnarrow .byte (by decide)).1 (hfits (by decide))
  obtain ⟨u, hu, huw⟩ := htwice .int rfl (.inr rfl)
  exact ⟨w, u, hw, (hdenotes 44).2 ⟨by decide, by decide⟩, hu, huw⟩

end RuleExpr

import RuleExpr.Binder.Literal
import RuleExpr.Proofs.WholeNumbers

/-!
# Codes of Characters

A character is converted to a number by its code, which has up to 21 bits, and a number to a
character by its low sixteen bits.  A character with a longer code therefore does not come back: the
low bits are the code of another character, or lie among the surrogates, which are codes of none.
The same happens to a character that is converted to a character, since it goes through its code as
well.
-/

namespace RuleExpr

open Number Value

variable {c d : Char} {v : Value}

/-- The low sixteen bits of the code of a character. -/
def lowCode (c : Char) : Nat := c.toNat % UInt16.size

/-- The character that is left of a character by the low sixteen bits of its code. -/
def lowCharacter? (c : Char) : Option Char :=
  if (lowCode c).isValidChar then some (Char.ofNat (lowCode c)) else none

theorem lowCode_eq_iff : lowCode c = c.toNat ↔ c.toNat < UInt16.size :=
  Nat.mod_eq_iff_lt (by decide)

theorem toNat_of_lowCharacter? (h : lowCharacter? c = some d) : d.toNat = lowCode c := by
  unfold lowCharacter? at h
  split at h
  case isTrue hvalid =>
    obtain rfl := Option.some.inj h
    rw [Char.ofNat, dif_pos hvalid]
    rfl
  case isFalse => cases h

theorem lowCharacter?_eq_self_iff : lowCharacter? c = some c ↔ c.toNat < UInt16.size := by
  rw [← lowCode_eq_iff]
  constructor
  · intro h
    exact (toNat_of_lowCharacter? h).symm
  · intro h
    have hvalid : c.toNat.isValidChar := c.valid
    rw [lowCharacter?, h, if_pos hvalid, Char.ofNat_toNat]

theorem holds_code (c : Char) : WholeKind.int.Holds c.toNat := by
  have hcode := code_lt c
  rw [WholeKind.holds_iff (by decide)]
  simp only [WholeKind.size, Int32.size]
  omega

theorem fits_code (c : Char) : WholeKind.long.Holds c.toNat :=
  WholeKind.holds_of_dvd (WholeKind.size_dvd_long (by decide)) (holds_code c)

theorem charOfInt64?_code (c : Char) : charOfInt64? (.ofInt c.toNat) = lowCharacter? c := by
  unfold charOfInt64?
  rw [WholeKind.toInt_ofInt_of_holds (fits_code c)]
  rfl

/-- What a value with the code of `c` gives as a character. -/
def Value.lowCharacter (v : Value) (c : Char) : Except EvalError Value :=
  match lowCharacter? c with
  | some d => .ok (.char d)
  | none => .error (.invalidConversion v.render NumericKind.char.label)

theorem convert_char (h : v.Denotes c.toNat) : v.convert .char = v.lowCharacter c := by
  have hnumber : v.numberAs? .char = (lowCharacter? c).map char := by
    rw [numberAs?, h.toInt64?_eq, if_pos (fits_code c), Option.bind_some, charOfInt64?_code]
  rw [lowCharacter]
  cases hlow : lowCharacter? c with
  | some d => exact h.convert_eq_ok (by rw [hnumber, hlow]; rfl)
  | none => exact h.convert_eq_error (by rw [hnumber, hlow]; rfl)

theorem lowCharacter_eq_ok_iff : v.lowCharacter c = .ok (.char c) ↔ c.toNat < UInt16.size := by
  rw [← lowCharacter?_eq_self_iff, lowCharacter]
  cases lowCharacter? c with
  | some d => simp only [Except.ok.injEq, char.injEq, Option.some.injEq]
  | none => simp only [reduceCtorEq]

/-- As a number of a kind with more bits a character is its code. -/
theorem convert_code {through : NumericKind}
    (h : through ∈ [NumericKind.int, .long, .bigInteger, .bigDecimal]) (c : Char) :
    ∃ w, (char c).convert through = .ok w ∧ w.numericKind? = some through ∧
      w.Denotes c.toNat := by
  have hcode : (char c).Denotes c.toNat := rfl
  have hwhole (target : WholeKind) (htarget : target.Holds c.toNat) :
      ∃ w, (char c).convert target.numeric = .ok w ∧ w.numericKind? = some target.numeric ∧
        w.Denotes c.toNat :=
    ⟨_, hcode.convert_whole (.inr (fits_code c)), target.numericKind?_value _,
      WholeKind.denotes_value htarget⟩
  simp only [List.mem_cons, List.not_mem_nil, or_false] at h
  rcases h with rfl | rfl | rfl | rfl
  · exact hwhole .int (holds_code c)
  · exact hwhole .long (fits_code c)
  · exact hwhole .bigInteger (.inl rfl)
  · obtain ⟨d, hd, hdenotes⟩ := hcode.convert_decimal (fits_code c)
    exact ⟨_, hd, rfl, hdenotes⟩

/-- Every character can be written as a literal, and as a number it is its code.  Converted to a
character, directly or by way of a number, it leaves the low sixteen bits of its code, so that it
survives if and only if its code has no other bits. -/
theorem characters_survive_iff (c : Char) :
    readLiteral .char (String.singleton c) = some (.char c, .primitive .char) ∧
      (char c).convert .char = (char c).lowCharacter c ∧
      ((char c).convert .char = .ok (.char c) ↔ c.toNat < UInt16.size) ∧
      ∀ through ∈ [NumericKind.int, .long, .bigInteger, .bigDecimal],
        ∃ w, (char c).convert through = .ok w ∧ w.numericKind? = some through ∧
          w.Denotes c.toNat ∧ w.convert .char = w.lowCharacter c ∧
          (w.convert .char = .ok (.char c) ↔ c.toNat < UInt16.size) := by
  have hself : (char c).convert .char = (char c).lowCharacter c := convert_char rfl
  refine ⟨?_, hself, ?_, fun through hthrough => ?_⟩
  · simp only [readLiteral, String.toList_singleton]
  · rw [hself]
    exact lowCharacter_eq_ok_iff
  · obtain ⟨w, hw, hkind, hdenotes⟩ := convert_code hthrough c
    have hback := convert_char hdenotes
    refine ⟨w, hw, hkind, hdenotes, hback, ?_⟩
    rw [hback]
    exact lowCharacter_eq_ok_iff

/-- The character with the code 1F600 comes back from an int as the one with the code F600, and the
one with the code 1D800 does not come back. -/
theorem long_codes_lost :
    readLiteral .char (String.singleton (Char.ofNat 0x1F600)) =
        some (.char (Char.ofNat 0x1F600), .primitive .char) ∧
      (char (Char.ofNat 0x1F600)).convert .char = .ok (.char (Char.ofNat 0xF600)) ∧
      (char (Char.ofNat 0x1F600)).convert .int = .ok (.int 0x1F600) ∧
      (Value.int 0x1F600).convert .char = .ok (.char (Char.ofNat 0xF600)) ∧
      Char.ofNat 0xF600 ≠ Char.ofNat 0x1F600 ∧
      (char (Char.ofNat 0x1D800)).convert .char =
        .error (.invalidConversion (char (Char.ofNat 0x1D800)).render NumericKind.char.label) := by
  refine ⟨by rfl, by rfl, by rfl, by rfl, by decide, by rfl⟩

end RuleExpr

import Gazetteer.Proofs.Decimal.Rounding

/-!
# Packing binary fractions into bits

A number that is packed and unpacked is finite exactly if its exponent is in range (`isFinite_unpack_pack`), and it
comes back as it was if its mantissa has 53 bits (`unpack_pack`).  What is unpacked and finite has a mantissa and an
exponent in range (`Bounded`).
-/

namespace Gazetteer.Decimal

set_option autoImplicit false

open Float.Model (Format UnpackedFloat)
open Float.Model.UnpackedFloat

/-- Bits whose exponent is not all ones are those of a finite number. -/
theorem isFinite_unpack {b : BitVec Format.binary64.numBits} :
    (unpack .binary64 b).isFinite = true ↔ unpackExponent b ≠ -1#_ := by
  unfold unpack
  dsimp only
  by_cases ones : unpackExponent b = -1#_
  · rw [if_pos ones]
    refine iff_of_false ?_ (not_not_intro ones)
    by_cases vanishes : unpackMantissa b = 0#_
    · rw [if_pos vanishes]
      exact Bool.false_ne_true
    · rw [if_neg vanishes]
      exact Bool.false_ne_true
  · rw [if_neg ones]
    refine iff_of_true ?_ ones
    by_cases unbiased : unpackExponent b = 0#_
    · rw [if_pos unbiased]
      by_cases vanishes : unpackMantissa b = 0#_
      · rw [dif_pos vanishes]
        rfl
      · rw [dif_neg vanishes]
        rfl
    · rw [if_neg unbiased]
      rfl

/-- A mantissa with its leading bit. -/
theorem toNat_leading (v : BitVec 52) : (1#1 ++ v).toNat = 2 ^ 52 + v.toNat := by
  have joined := Nat.two_pow_add_eq_or_of_lt v.isLt 1
  rw [Nat.mul_one] at joined
  rw [BitVec.toNat_append, joined]
  rfl

/-- The parts of a number in range. -/
def Bounded : UnpackedFloat → Prop
  | .finite _ m e _ => m < 2 ^ 53 ∧ -1074 ≤ e ∧ e ≤ 971
  | .zero _ => True
  | _ => False

theorem bounded_unpack {b : BitVec Format.binary64.numBits} (isFinite : (unpack .binary64 b).isFinite = true) :
    Bounded (unpack .binary64 b) := by
  have fewer := isFinite_unpack.1 isFinite
  have bias : (Format.binary64.exponentBias : Int) = 1023 := rfl
  have width : (Format.binary64.mantissaBitsWithoutImplicit : Int) = 52 := rfl
  have most : (unpackExponent b).toNat ≠ 2047 := by
    intro same
    exact fewer (BitVec.eq_of_toNat_eq same)
  have room : (unpackExponent b).toNat < 2048 := (unpackExponent b).isLt
  have mantissa : (unpackMantissa b).toNat < 2 ^ 52 := (unpackMantissa b).isLt
  unfold unpack
  dsimp only
  rw [if_neg fewer]
  by_cases unbiased : unpackExponent b = 0#_
  · rw [if_pos unbiased]
    by_cases vanishes : (unpackMantissa b) = 0#_
    · rw [dif_pos vanishes]
      trivial
    · rw [dif_neg vanishes, unbiased, bias, width]
      exact ⟨by omega, by simp, by simp⟩
  · have low : (unpackExponent b).toNat ≠ 0 := by
      intro same
      exact unbiased (BitVec.eq_of_toNat_eq same)
    rw [if_neg unbiased, bias, width]
    exact ⟨by rw [toNat_leading]; omega, by omega, by omega⟩

theorem isFinite_unpack_packedZero (s : Sign) : (unpack .binary64 (packedZero .binary64 s)).isFinite = true := by
  rw [isFinite_unpack, packedZero, unpackExponent_packComponents]
  decide

section Pack

variable {s : Sign} {m : Nat} {e : Int} {positive : 0 < m}

theorem pack_finite : pack .binary64 (.finite s m e positive) =
    if 972 ≤ e then packedInfinity .binary64 s
    else packComponents .binary64 s (if m.log2 = 52 then BitVec.ofNat 11 (e + 1075).toNat else 0#_)
      (BitVec.ofNat 52 m) := by
  have bias : (Format.binary64.exponentBias : Int) = 1023 := rfl
  have width : (Format.binary64.mantissaBitsWithoutImplicit : Int) = 52 := rfl
  have sum : (e + 1023 + 52).toNat = (e + 1075).toNat := by omega
  have bits : Format.binary64.mantissaBits = 53 := rfl
  unfold pack
  dsimp only
  rw [bias, width, sum, bits]
  by_cases large : 972 ≤ e
  · rw [if_pos large, if_pos (by omega)]
  · rw [if_neg large, if_neg (by omega)]
    by_cases normal : m.log2 = 52
    · rw [if_pos normal, if_pos (by omega)]
    · rw [if_neg normal, if_neg (by omega)]

theorem isFinite_unpack_pack :
    (unpack .binary64 (pack .binary64 (.finite s m e positive))).isFinite = true ↔ e ≤ 971 := by
  rw [isFinite_unpack, pack_finite]
  split
  · rename_i large
    rw [packedInfinity, unpackExponent_packComponents]
    simp only [ne_eq, not_true_eq_false, false_iff]
    omega
  · rename_i small
    rw [unpackExponent_packComponents]
    have fewer : (if m.log2 = 52 then BitVec.ofNat 11 (e + 1075).toNat else 0#11) ≠ -1#11 := by
      intro ones
      have same := congrArg BitVec.toNat ones
      split at same
      · rw [BitVec.toNat_ofNat, Nat.mod_eq_of_lt (by omega)] at same
        change _ = 2047 at same
        omega
      · cases same
    exact ⟨fun _ => by omega, fun _ => fewer⟩

theorem isInf_unpack_pack :
    (unpack .binary64 (pack .binary64 (.finite s m e positive))).isInf = true ↔ 972 ≤ e := by
  constructor
  · intro infinite
    have unbounded : ¬ (unpack .binary64 (pack .binary64 (.finite s m e positive))).isFinite = true := by
      generalize unpack .binary64 (pack .binary64 (.finite s m e positive)) = u at infinite
      cases u with
      | infinity => exact Bool.false_ne_true
      | _ => cases infinite
    rw [isFinite_unpack_pack] at unbounded
    omega
  · intro large
    rw [pack_finite, if_pos large]
    unfold unpack packedInfinity
    dsimp only
    rw [unpackExponent_packComponents, if_pos rfl, unpackMantissa_packComponents]
    rfl

/-- A number with 53 bits comes back from its bits, up to its sign. -/
theorem unpack_pack (s : Sign) (positive : 0 < m) (least : 2 ^ 52 ≤ m) (most : m < 2 ^ 53) (low : -1074 ≤ e)
    (high : e ≤ 971) :
    ∃ s', unpack .binary64 (pack .binary64 (.finite s m e positive)) = .finite s' m e positive := by
  have bias : (Format.binary64.exponentBias : Int) = 1023 := rfl
  have width : (Format.binary64.mantissaBitsWithoutImplicit : Int) = 52 := rfl
  have bits : m.log2 = 52 := by
    have lower := (Nat.le_log2 (n := m) (k := 52) (by omega)).2 least
    have upper := (Nat.log2_lt (n := m) (k := 53) (by omega)).2 most
    omega
  have exponent : (BitVec.ofNat 11 (e + 1075).toNat).toNat = (e + 1075).toNat := by
    rw [BitVec.toNat_ofNat, Nat.mod_eq_of_lt (by omega)]
  have mantissa : (1#1 ++ BitVec.ofNat 52 m).toNat = m := by
    rw [toNat_leading, BitVec.toNat_ofNat]
    omega
  have notOnes : BitVec.ofNat 11 (e + 1075).toNat ≠ -1#11 := by
    intro ones
    rw [ones] at exponent
    change 2047 = _ at exponent
    omega
  have notZeros : BitVec.ofNat 11 (e + 1075).toNat ≠ 0#11 := by
    intro zeros
    rw [zeros] at exponent
    change 0 = _ at exponent
    omega
  rw [pack_finite, if_neg (by omega), if_pos bits]
  unfold unpack
  dsimp only
  rw [unpackExponent_packComponents, if_neg notOnes, if_neg notZeros]
  constructor
  rw [UnpackedFloat.finite.injEq, unpackMantissa_packComponents, mantissa, exponent, bias, width]
  exact ⟨rfl, rfl, by omega⟩

end Pack

/-- A rounded number is finite once it is packed, or it is infinite since its exponent is out of range. -/
theorem isFinite_or_isInf_round (s : Sign) (m : Nat) (e : Int) (accuracy : Accuracy) :
    (unpack .binary64 (pack .binary64 (roundWithAccuracy .binary64 s m e accuracy))).isFinite = true ∨
      (unpack .binary64 (pack .binary64 (roundWithAccuracy .binary64 s m e accuracy))).isInf = true ∧
        ∃ m' e' positive, roundWithAccuracy .binary64 s m e accuracy = .finite s m' e' positive ∧ 972 ≤ e' := by
  obtain ⟨zero, _⟩ | ⟨positive, result⟩ := roundWithAccuracy_cases s m e accuracy
  · rw [zero]
    exact .inl (isFinite_unpack_packedZero s)
  · rw [result]
    by_cases small : max (max e (target m e)) (target (rounded m e accuracy) (max e (target m e))) ≤ 971
    · exact .inl (isFinite_unpack_pack.2 small)
    · have large : 972 ≤ max (max e (target m e)) (target (rounded m e accuracy) (max e (target m e))) := by omega
      exact .inr ⟨isInf_unpack_pack.2 large, _, _, positive, rfl, large⟩

end Gazetteer.Decimal

import Gazetteer.Proofs.Decimal.Packing
import Gazetteer.Proofs.Decimal.Shortest

/-!
# The bits of a finite number

Bits whose exponent is not all ones are those of a finite number (`Finite`), and what they stand for fits
(`Finite.fits`).  The bits of every finite result of arithmetic are such (`finite_toBits`).
-/

namespace Gazetteer.Decimal

set_option autoImplicit false

open Float.Model.UnpackedFloat (unpackExponent)

/-- These are the bits of a number, not of an infinity or of no number at all. -/
def Finite (bits : UInt64) : Prop := bits.toNat / 2 ^ 52 % 2 ^ 11 ≠ 2047

instance (bits : UInt64) : Decidable (Finite bits) := inferInstanceAs (Decidable (_ ≠ _))

theorem finite_toBits {f : Float} (finite : f.isFinite = true) : Finite f.toBits := by
  change (Float.Model.UnpackedFloat.unpack .binary64 f.toBits.toBitVec).isFinite = true at finite
  intro ones
  apply isFinite_unpack.1 finite
  apply BitVec.eq_of_toNat_eq
  show (f.toBits.toNat >>> 52) % 2 ^ 11 = 2047
  rw [Nat.shiftRight_eq_div_pow]
  exact ones

/-- Cutting the sign. -/
theorem toNat_size (bits : UInt64) : (bits &&& 0x7FFFFFFFFFFFFFFF).toNat = bits.toNat % 2 ^ 63 := by
  rw [UInt64.toNat_and]
  exact Nat.and_two_pow_sub_one_eq_mod bits.toNat 63

theorem toNat_fraction (bits : UInt64) : (bits &&& 0xFFFFFFFFFFFFF).toNat = bits.toNat % 2 ^ 52 := by
  rw [UInt64.toNat_and]
  exact Nat.and_two_pow_sub_one_eq_mod bits.toNat 52

theorem toNat_biased (bits : UInt64) : ((bits >>> 52) &&& 0x7FF).toNat = bits.toNat / 2 ^ 52 % 2 ^ 11 := by
  rw [UInt64.toNat_and, UInt64.toNat_shiftRight]
  have masked := Nat.and_two_pow_sub_one_eq_mod (bits.toNat >>> 52) 11
  rw [Nat.shiftRight_eq_div_pow] at masked
  rw [← masked, ← Nat.shiftRight_eq_div_pow]
  rfl

theorem Finite.size {bits : UInt64} (finite : Finite bits) : Finite (bits &&& 0x7FFFFFFFFFFFFFFF) := by
  unfold Finite at finite ⊢
  rw [toNat_size]
  omega

/-- What finite bits stand for, the sign apart. -/
theorem Finite.fits {bits : UInt64} (finite : Finite bits) : (Binary.ofBits bits).Fits := by
  unfold Finite at finite
  unfold Binary.ofBits
  dsimp only
  rw [toNat_fraction, toNat_biased]
  have fraction := Nat.mod_lt bits.toNat (Nat.two_pow_pos 52)
  have biased := Nat.mod_lt (bits.toNat / 2 ^ 52) (Nat.two_pow_pos 11)
  generalize bits.toNat % 2 ^ 52 = fraction at *
  generalize bits.toNat / 2 ^ 52 % 2 ^ 11 = biased at *
  split
  · exact ⟨by dsimp only; omega, by dsimp only; omega, by dsimp only; omega, nofun⟩
  · refine ⟨by dsimp only; omega, by dsimp only; omega, by dsimp only; omega, ?_⟩
    intro close
    dsimp only at close ⊢
    simp only [Bool.and_eq_true, decide_eq_true_eq] at close
    omega

end Gazetteer.Decimal

import Gazetteer.Json.Number
import Gazetteer.Proofs.Decimal.Packing

/-!
# Powers of ten as binary fractions

Multiplying a significand by a power of ten rounds three times: the significand, the power and their product.  None of
them leaves the range while the exact product stays three units of the last place below its end (`isSome_scale`), and
what comes out is always finite (`isFinite_scale`).
-/

namespace Gazetteer.Json

set_option autoImplicit false

open Decimal
open Float.Model (Format UnpackedFloat)
open Float.Model.UnpackedFloat

/-! ## Rounded numbers -/

/-- A binary fraction `m · 2 ^ e` of 53 bits that exceeds a number by a unit of the 54th bit at most. -/
structure Near (f : Float) (x : ℚ) (m : Nat) (e : Int) : Prop where
  parts : ∃ sign positive, f.toModel.unpack = .finite sign m e positive
  least : 2 ^ 52 ≤ m
  high : e ≤ 971
  close : value m e * 2 ^ 53 ≤ x * (2 ^ 53 + 1)

theorem Near.isFinite {f : Float} {x : ℚ} {m : Nat} {e : Int} (near : Near f x m e) : f.isFinite = true := by
  obtain ⟨sign, positive, parts⟩ := near.parts
  show f.toModel.unpack.isFinite = true
  rw [parts]
  rfl

/-- The end of the range, half a unit behind the greatest number, twice. -/
def limit : ℚ := (2 ^ 54 - 1) * 2 ^ (971 : Int)

/-- What a number is rounded to, while it is in range. -/
theorem near_round (s : Sign) {m : Nat} {e : Int} (some : 0 < m) (enough : 52 ≤ m.log2)
    (normal : -1022 ≤ m.log2 + e) (small : 2 * value m e < limit) : ∃ m' e',
    Near (.ofModel (.pack (roundWithAccuracy .binary64 s m e .exact))) (value m e) m' e' ∧ m.log2 + e - 52 ≤ e' := by
  obtain ⟨m', e', positive, result, ⟨least, most⟩, ⟨low, _⟩, close⟩ := round_near s some enough normal
  have high : e' ≤ 971 := by
    apply Int.not_lt.1
    intro large
    exact absurd small (not_lt.2 (overflow_le enough result large))
  obtain ⟨sign, back⟩ := unpack_pack s positive least most (by omega) high
  refine ⟨m', e', ⟨⟨sign, positive, ?_⟩, least, high, close⟩, low⟩
  rw [result]
  exact back

/-! ## Significands -/

theorem value_shiftLeft (n k : Nat) : value (n <<< k) (0 - (k : Int)) = n := by
  rw [value, Nat.shiftLeft_eq, zero_sub, zpow_neg, zpow_natCast]
  push_cast
  exact mul_inv_cancel_right₀ (pow_ne_zero k two_ne_zero) _

theorem lt_limit {n : Nat} (small : 2 * n < 18014398509481983 * 2 ^ 971) : 2 * (n : ℚ) < limit := by
  have cast : ((2 * n : Nat) : ℚ) < ((18014398509481983 * 2 ^ 971 : Nat) : ℚ) := Nat.cast_lt.2 small
  have power : (2 : ℚ) ^ (971 : Int) = 2 ^ 971 := zpow_natCast 2 971
  have factor : (2 : ℚ) ^ 54 - 1 = 18014398509481983 := by norm_num
  rw [limit, power, factor]
  rw [Nat.cast_mul, Nat.cast_mul, Nat.cast_pow] at cast
  exact cast

theorem isFinite_toFloat_zero : (UInt64.ofNat 0).toFloat.isFinite = true := by
  decide +kernel

/-- A significand of 64 bits. -/
theorem near_toFloat {n : Nat} (some : 0 < n) (fits : n < 2 ^ 64) : ∃ m e, Near (UInt64.ofNat n).toFloat n m e := by
  have toNat : (UInt64.ofNat n).toNat = n := UInt64.toNat_ofNat_of_lt' fits
  have log : n.log2 < 64 := (Nat.log2_lt (by omega)).2 fits
  have place : Format.binary64.targetExponent (Float.Model.totalExponent n 0) = n.log2 - 52 := by
    rw [targetExponent_eq, target]
    omega
  have shifted : UnpackedFloat.ofUInt64 .binary64 (UInt64.ofNat n) =
      roundWithAccuracy .binary64 .positive (n <<< (52 - n.log2)) (0 - (52 - n.log2 : Nat)) .exact := by
    have order : compare (n : Int) 0 = .gt := by
      rw [Int.compare_eq_gt]
      omega
    have amount : ((0 : Int) - (n.log2 - 52)).toNat = 52 - n.log2 := by omega
    simp only [UnpackedFloat.ofUInt64, UnpackedFloat.ofNat, UnpackedFloat.ofInt, UnpackedFloat.normalize,
      UnpackedFloat.round, toNat, order, place, decreaseExponent, Int.toNat_natCast, amount]
  have leading : 2 ^ 52 ≤ n <<< (52 - n.log2) := by
    rw [Nat.shiftLeft_eq]
    calc 2 ^ 52 ≤ 2 ^ (n.log2 + (52 - n.log2)) := Nat.pow_le_pow_right (by decide) (by omega)
      _ = 2 ^ n.log2 * 2 ^ (52 - n.log2) := Nat.pow_add 2 _ _
      _ ≤ n * 2 ^ (52 - n.log2) := Nat.mul_le_mul_right _ (Nat.log2_self_le (by omega))
  have enough := (Nat.le_log2 (n := n <<< (52 - n.log2)) (k := 52) (by omega)).2 leading
  have small : 2 * (n : ℚ) < limit := by
    apply lt_limit
    calc 2 * n < 2 * 2 ^ 64 := by omega
      _ ≤ 18014398509481983 * 2 ^ 971 := by decide +kernel
  obtain ⟨m, e, near, _⟩ := near_round .positive (m := n <<< (52 - n.log2)) (e := 0 - (52 - n.log2 : Nat)) (by omega)
    enough (by omega) (by rw [value_shiftLeft]; exact small)
  rw [value_shiftLeft, ← shifted] at near
  exact ⟨m, e, near⟩

/-! ## Powers of ten -/

/-- Whether a power of ten is held as it is, in 53 bits. -/
def isExactPower (k : Nat) : Bool :=
  match (powerOfTen k).toModel.unpack with
  | .finite _ m e _ =>
      2 ^ 52 ≤ m && -52 ≤ e && e ≤ 971 && (k = 0 || -49 ≤ e) && m * 2 ^ (e + 52).toNat = 10 ^ k * 2 ^ 52
  | _ => false

theorem isExactPower_of_lt : ∀ k : Fin 23, isExactPower k = true := by
  decide +kernel

theorem near_of_isExactPower {k : Nat} (exact : isExactPower k = true) :
    ∃ m e, Near (powerOfTen k) (10 ^ k) m e ∧ (1 ≤ k → -49 ≤ e) := by
  unfold isExactPower at exact
  cases parts : (powerOfTen k).toModel.unpack with
  | finite sign m e positive =>
    rw [parts] at exact
    dsimp only at exact
    simp only [Bool.and_eq_true, Bool.or_eq_true, decide_eq_true_eq] at exact
    obtain ⟨⟨⟨⟨least, low⟩, high⟩, large⟩, equal⟩ := exact
    have same : value m e = 10 ^ k := by
      have cast : (m : ℚ) * 2 ^ (e + 52).toNat = 10 ^ k * 2 ^ 52 := by exact_mod_cast equal
      have place : (2 : ℚ) ^ (e + 52).toNat = 2 ^ e * 2 ^ 52 := by
        rw [← zpow_natCast, ← zpow_natCast, ← zpow_add₀ two_ne_zero]
        congr 1
        push_cast
        omega
      rw [place, ← mul_assoc] at cast
      exact mul_right_cancel₀ (by norm_num) cast
    refine ⟨m, e, ⟨⟨sign, positive, parts⟩, least, high, ?_⟩, by omega⟩
    rw [same]
    have positive : (0 : ℚ) < 10 ^ k := by positivity
    linarith
  | _ =>
    rw [parts] at exact
    cases exact

/-- A power that is not held exactly is one of 53 bits more, rounded. -/
theorem powerOfTen_eq_round {k : Nat} (long : 23 ≤ k) (fits : k ≤ 308) : powerOfTen k =
    .ofModel (.pack (roundWithAccuracy .binary64 .positive (2 ^ 53 * 10 ^ k) (-53) .exact)) := by
  have notHuge : ¬ (Int.ofNat k > 2 ^ Format.binary64.exponentBits) := by
    show ¬ ((k : Int) > 2 ^ 11)
    omega
  have notTiny : ¬ (Int.ofNat k < -((2 ^ Format.binary64.exponentBits : Int) + Nat.log2 1)) := by
    show ¬ ((k : Int) < -((2 ^ 11 : Int) + Nat.log2 1))
    omega
  have natural : 0 ≤ Int.ofNat k := Int.natCast_nonneg k
  rw [powerOfTen, Float.ofScientific, dif_neg (by omega)]
  unfold Float.Model.ofScientific UnpackedFloat.ofScientific
  rw [if_neg Bool.false_ne_true]
  dsimp only
  rw [dif_neg Nat.one_ne_zero, if_neg notHuge, if_neg notTiny, if_pos natural]
  rfl

theorem near_powerOfTen {k : Nat} (fits : k ≤ 308) :
    ∃ m e, Near (powerOfTen k) (10 ^ k) m e ∧ (1 ≤ k → -49 ≤ e) := by
  by_cases short : k < 23
  · exact near_of_isExactPower (isExactPower_of_lt ⟨k, short⟩)
  · have exact : value (2 ^ 53 * 10 ^ k) (-53) = 10 ^ k := by
      have power : (2 : ℚ) ^ (-53 : Int) = (2 ^ 53)⁻¹ := by rw [zpow_neg, zpow_ofNat]
      have whole : (2 : ℚ) ^ 53 ≠ 0 := pow_ne_zero 53 two_ne_zero
      rw [value, power, Nat.cast_mul, Nat.cast_pow, Nat.cast_pow, mul_comm ((2 : Nat) ^ 53 : ℚ), mul_assoc]
      norm_num
    have some : 0 < 10 ^ k := Nat.pow_pos (by decide)
    have bits : 8 ≤ 10 ^ k := Nat.le_trans (by decide : 8 ≤ 10 ^ 23) (Nat.pow_le_pow_right (by decide) (by omega))
    have length := (Nat.le_log2 (n := 2 ^ 53 * 10 ^ k) (k := 56) (by omega)).2 (by omega)
    have small : 2 * value (2 ^ 53 * 10 ^ k) (-53) < limit := by
      rw [exact]
      have bound : 2 * 10 ^ k < 18014398509481983 * 2 ^ 971 := by
        calc 2 * 10 ^ k ≤ 2 * 10 ^ 308 := Nat.mul_le_mul_left 2 (Nat.pow_le_pow_right (by decide) fits)
          _ < 18014398509481983 * 2 ^ 971 := by decide +kernel
      have cast := lt_limit bound
      push_cast at cast
      exact cast
    obtain ⟨m, e, near, low⟩ := near_round .positive (m := 2 ^ 53 * 10 ^ k) (e := -53) (by omega) (by omega) (by omega)
      small
    rw [exact, ← powerOfTen_eq_round (by omega) fits] at near
    exact ⟨m, e, near, fun _ => by omega⟩

/-! ## Products and quotients -/

section Arithmetic

variable {f g : Float} {x y : ℚ} {m n : Nat} {d e : Int}

theorem toModel_mul (f g : Float) :
    (f * g).toModel = .pack (UnpackedFloat.mul .binary64 f.toModel.unpack g.toModel.unpack) := rfl

theorem toModel_div (f g : Float) :
    (f / g).toModel = .pack (UnpackedFloat.div .binary64 f.toModel.unpack g.toModel.unpack) := rfl

theorem not_isInf_of_isFinite {u : UnpackedFloat} (finite : u.isFinite = true) : u.isInf = false := by
  cases u with
  | infinity => cases finite
  | notANumber => rfl
  | zero => rfl
  | finite => rfl

/-- A product stays in range while the exact one is three units of the last place below its end. -/
theorem isInf_mul (left : Near f x m d) (right : Near g y n e) (some : 0 ≤ x)
    (small : 2 * (x * y) ≤ (2 ^ 54 - 7) * 2 ^ (971 : Int)) : (f * g).isInf = false := by
  obtain ⟨s, positive, leftParts⟩ := left.parts
  obtain ⟨s', positive', rightParts⟩ := right.parts
  show (f * g).toModel.unpack.isInf = false
  rw [toModel_mul, leftParts, rightParts]
  obtain finite | ⟨_, m', e', positive'', result, large⟩ :=
    isFinite_or_isInf_round (s * s') (m * n) (d + e) .exact
  · exact not_isInf_of_isFinite finite
  · have enough : 52 ≤ (m * n).log2 := by
      have product : 2 ^ 52 * 1 ≤ m * n := Nat.mul_le_mul left.least positive'
      exact (Nat.le_log2 (by omega)).2 (by omega)
    have beyond := overflow_le enough result large
    have both : value (m * n) (d + e) = value m d * value n e := by
      rw [value, value, value, zpow_add₀ two_ne_zero]
      push_cast
      ring
    have unit : (0 : ℚ) < 2 ^ (971 : Int) := zpow_pos two_pos 971
    have above : value m d * 2 ^ 53 * (value n e * 2 ^ 53) ≤ x * (2 ^ 53 + 1) * (y * (2 ^ 53 + 1)) :=
      mul_le_mul left.close right.close (mul_nonneg (value_pos positive').le (by norm_num))
        (mul_nonneg some (by norm_num))
    rw [both] at beyond
    generalize (2 : ℚ) ^ (971 : Int) = u at unit small beyond
    exfalso
    nlinarith

/-- What is finite stays finite when it is multiplied, unless it becomes infinite. -/
theorem isFinite_mul (left : f.isFinite = true) (right : g.isFinite = true) (finite : (f * g).isInf = false) :
    (f * g).isFinite = true := by
  change f.toModel.unpack.isFinite = true at left
  change g.toModel.unpack.isFinite = true at right
  change (f * g).toModel.unpack.isInf = false at finite
  show (f * g).toModel.unpack.isFinite = true
  rw [toModel_mul] at finite ⊢
  generalize f.toModel.unpack = u at left finite ⊢
  generalize g.toModel.unpack = v at right finite ⊢
  cases u with
  | infinity => cases left
  | notANumber => cases left
  | zero s =>
    cases v with
    | infinity => cases right
    | notANumber => cases right
    | zero s' => exact isFinite_unpack_packedZero (s * s')
    | finite s' m' e' positive' => exact isFinite_unpack_packedZero (s * s')
  | finite s m e positive =>
    cases v with
    | infinity => cases right
    | notANumber => cases right
    | zero s' => exact isFinite_unpack_packedZero (s * s')
    | finite s' m' e' positive' =>
      obtain isFinite | ⟨infinite, _⟩ := isFinite_or_isInf_round (s * s') (m * m') (e + e') .exact
      · exact isFinite
      · exact absurd (finite.symm.trans infinite) (by decide)

/-- A quotient by eight or more has a smaller exponent. -/
theorem divCore_le (most : m < 2 ^ 53) (high : d ≤ 971) (least : 2 ^ 52 ≤ n) (large : -49 ≤ e) :
    max (divCore .binary64 m d n e).2.1 (target (divCore .binary64 m d n e).1 (divCore .binary64 m d n e).2.1) ≤
      970 := by
  have divisor : 52 ≤ n.log2 := (Nat.le_log2 (by omega)).2 least
  have dividend : m.log2 ≤ 52 := by
    obtain zero | some := Nat.eq_zero_or_pos m
    · rw [zero, Nat.log2_zero]
      omega
    · have below := (Nat.log2_lt (n := m) (k := 53) (by omega)).2 most
      omega
  have mantissaBits : (Format.binary64.mantissaBits : Int) = 53 := rfl
  have minExponent : Format.binary64.minExponent = -1074 := rfl
  simp only [divCore, Format.targetExponent, Float.Model.totalExponent, mantissaBits, minExponent]
  generalize place : min (d - e) (max ((m.log2 : Int) + 1 + d - ((n.log2 : Int) + 1 + e) - 53) (-1074)) = t
  have quotient : (m <<< (d - e - t).toNat / n).log2 ≤ (d - e - t).toNat := by
    obtain zero | some := Nat.eq_zero_or_pos (m <<< (d - e - t).toNat / n)
    · rw [zero, Nat.log2_zero]
      omega
    · have leading := Nat.log2_self_le (n := m <<< (d - e - t).toNat / n) (by omega)
      generalize (d - e - t).toNat = k at leading some ⊢
      have bound : 2 ^ ((m <<< k / n).log2 + 52) < 2 ^ (53 + k) := by
        calc 2 ^ ((m <<< k / n).log2 + 52) = 2 ^ (m <<< k / n).log2 * 2 ^ 52 := Nat.pow_add 2 _ _
          _ ≤ m <<< k / n * n := Nat.mul_le_mul leading least
          _ ≤ m <<< k := Nat.div_mul_le_self _ _
          _ = m * 2 ^ k := Nat.shiftLeft_eq m k
          _ < 2 ^ 53 * 2 ^ k := Nat.mul_lt_mul_of_pos_right most (Nat.two_pow_pos k)
          _ = 2 ^ (53 + k) := (Nat.pow_add 2 _ _).symm
      have order := (Nat.pow_lt_pow_iff_right (by decide)).1 bound
      omega
  unfold target
  omega

/-- What is finite stays finite when it is divided by eight or more. -/
theorem isFinite_div (left : f.isFinite = true) (right : Near g y n e) (large : -49 ≤ e) :
    (f / g).isFinite = true := by
  obtain ⟨s', positive', rightParts⟩ := right.parts
  change f.toModel.unpack.isFinite = true at left
  show (f / g).toModel.unpack.isFinite = true
  rw [toModel_div, rightParts]
  have bounded : Bounded f.toModel.unpack := bounded_unpack left
  generalize f.toModel.unpack = u at left bounded ⊢
  cases u with
  | infinity => cases left
  | notANumber => cases left
  | zero s => exact isFinite_unpack_packedZero (s / s')
  | finite s m d positive =>
    obtain ⟨most, _, high⟩ := bounded
    have inside := divCore_le most high right.least large
    obtain finite | ⟨_, m', e', positive'', result, beyond⟩ := isFinite_or_isInf_round (s / s')
      (divCore .binary64 m d n e).1 (divCore .binary64 m d n e).2.1 (divCore .binary64 m d n e).2.2
    · exact finite
    · have bound := exponent_le result
      omega

theorem isFinite_neg (finite : f.isFinite = true) : (-f).isFinite = true := by
  change f.toModel.unpack.isFinite = true at finite
  show (unpack .binary64 (pack .binary64 f.toModel.unpack.neg)).isFinite = true
  have bounded : Bounded f.toModel.unpack := bounded_unpack finite
  generalize f.toModel.unpack = u at finite bounded ⊢
  cases u with
  | infinity => cases finite
  | notANumber => cases finite
  | zero s => exact isFinite_unpack_packedZero (-s)
  | finite s m e positive => exact isFinite_unpack_pack.2 bounded.2.2

end Arithmetic

/-! ## Scaling -/

/-- Scaling a finite number gives a finite number, if anything. -/
theorem isFinite_scaleFrom {fuel : Nat} {f g : Float} {exponent : Int} (finite : f.isFinite = true)
    (scaled : scaleFrom? fuel f exponent = some g) : g.isFinite = true := by
  induction fuel generalizing f exponent with
  | zero =>
    cases scaled
    exact finite
  | succ fuel ih =>
    unfold scaleFrom? at scaled
    split at scaled
    · rename_i short
      obtain ⟨m, e, power, low⟩ := near_powerOfTen short
      split at scaled
      · dsimp only at scaled
        split at scaled
        · cases scaled
        · rename_i inside
          cases scaled
          exact isFinite_mul finite power.isFinite (Bool.eq_false_iff.2 inside)
      · cases scaled
        exact isFinite_div finite power (low (by omega))
    · split at scaled
      · cases scaled
        exact finite
      split at scaled
      · cases scaled
      · obtain ⟨m, e, power, low⟩ := near_powerOfTen (Nat.le_refl 308)
        exact ih (isFinite_div finite power (low (by decide))) scaled

theorem isFinite_toFloat {n : Nat} (fits : n < 2 ^ 64) : (UInt64.ofNat n).toFloat.isFinite = true := by
  obtain zero | some := Nat.eq_zero_or_pos n
  · rw [zero]
    exact isFinite_toFloat_zero
  · obtain ⟨m, e, near⟩ := near_toFloat some fits
    exact near.isFinite

theorem isFinite_scale {n : Nat} {exponent : Int} {f : Float} (fits : n < 2 ^ 64)
    (scaled : scale? n exponent = some f) : f.isFinite = true :=
  isFinite_scaleFrom (isFinite_toFloat fits) scaled

/-- Scaling down never fails. -/
theorem isSome_scaleFrom {fuel : Nat} {f : Float} {exponent : Int} (down : exponent < 0) :
    ∃ g, scaleFrom? fuel f exponent = some g := by
  induction fuel generalizing f exponent with
  | zero => exact ⟨f, rfl⟩
  | succ fuel ih =>
    unfold scaleFrom?
    split
    · rw [if_neg (by omega)]
      exact ⟨_, rfl⟩
    · split
      · exact ⟨f, rfl⟩
      · rw [if_neg (by omega)]
        exact ih (by omega)

/-- Scaling up does not fail while the product stays three units of the last place below the end of the range. -/
theorem isSome_scale {n k : Nat} (positive : 0 < n) (fits : n < 2 ^ 64)
    (small : 2 * (n * 10 ^ k) ≤ (2 ^ 54 - 7) * 2 ^ 971) : ∃ f, scale? n k = some f := by
  have short : k ≤ 308 := by
    apply Nat.not_lt.1
    intro long
    have beyond : (2 ^ 54 - 7) * 2 ^ 971 < 2 * (1 * 10 ^ (308 + 1)) := by decide +kernel
    have power : 2 * (1 * 10 ^ (308 + 1)) ≤ 2 * (n * 10 ^ k) :=
      Nat.mul_le_mul_left 2 (Nat.mul_le_mul positive (Nat.pow_le_pow_right (by decide) long))
    exact absurd (Nat.le_trans power small) (Nat.not_le.2 beyond)
  have product : 2 * ((n : ℚ) * 10 ^ k) ≤ (2 ^ 54 - 7) * 2 ^ (971 : Int) := by
    have cast : ((2 * (n * 10 ^ k) : Nat) : ℚ) ≤ (((2 ^ 54 - 7) * 2 ^ 971 : Nat) : ℚ) := Nat.cast_le.2 small
    have scale : (2 : ℚ) ^ (971 : Int) = 2 ^ 971 := zpow_natCast 2 971
    have factor : (2 : ℚ) ^ 54 - 7 = ((2 ^ 54 - 7 : Nat) : ℚ) := by norm_num
    rw [scale, factor]
    rw [Nat.cast_mul, Nat.cast_mul, Nat.cast_mul, Nat.cast_pow, Nat.cast_pow] at cast
    exact cast
  obtain ⟨m, d, left⟩ := near_toFloat positive fits
  obtain ⟨m', e, right, _⟩ := near_powerOfTen short
  have finite := isInf_mul left right (Nat.cast_nonneg n) product
  refine ⟨(UInt64.ofNat n).toFloat * powerOfTen k, ?_⟩
  rw [scale?, scaleFrom?, Int.natAbs_natCast, if_pos short, if_pos (Int.natCast_nonneg k)]
  simp only [finite, Bool.false_eq_true, if_false]

end Gazetteer.Json

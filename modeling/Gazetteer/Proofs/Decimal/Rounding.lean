import Mathlib.Algebra.Order.Field.Power
import Mathlib.Data.Nat.Log
import Mathlib.Tactic.Linarith
import Mathlib.Tactic.NormNum
import Mathlib.Tactic.Positivity
import Mathlib.Tactic.Ring

/-!
# Rounding to binary fractions

What the rounding of binary64 arithmetic does to a mantissa and an exponent: bits are shifted out and the rest is
rounded, so a result exceeds what it stands for by half a unit of its last place at most (`two_mul_rounded_le`), and
its exponent leaves the range only where the exact value does (`overflow_le`).
-/

namespace Gazetteer.Decimal

set_option autoImplicit false

open Float.Model UnpackedFloat

/-- The number `m · 2 ^ e`. -/
def value (m : Nat) (e : Int) : ℚ := m * 2 ^ e

/-! ## Shifting bits out -/

theorem mantissa_shift (em : ExtendedMantissa) (n : Nat) : (em >>> n).mantissa = em.mantissa / 2 ^ n := by
  show (n.repeat ExtendedMantissa.shiftRightOne em).mantissa = _
  induction n with
  | zero => simp [Nat.repeat]
  | succ n ih => rw [Nat.repeat, ExtendedMantissa.shiftRightOne, ih, Nat.div_div_eq_div_mul, Nat.pow_succ]

/-- The round bit is set only if at least half a unit was shifted out. -/
theorem half_le_of_roundBit (m n : Nat)
    (set : (ExtendedMantissa.ofMantissaAndAccuracy m .exact >>> n).roundBit = true) : 2 ^ n ≤ 2 * (m % 2 ^ n) := by
  cases n with
  | zero => cases set
  | succ n =>
    have bit : ((ExtendedMantissa.ofMantissaAndAccuracy m .exact >>> n).mantissa % 2 != 0) = true := set
    rw [mantissa_shift, bne_iff_ne] at bit
    change m / 2 ^ n % 2 ≠ 0 at bit
    have odd : m / 2 ^ n % 2 = 1 := by omega
    rw [Nat.mod_pow_succ, odd, Nat.pow_succ]
    omega

/-- A mantissa is rounded up by one at most, and only if the round bit is set. -/
theorem rounded_cases (em : ExtendedMantissa) :
    em.roundedMantissa = em.mantissa ∨ em.roundBit = true ∧ em.roundedMantissa = em.mantissa + 1 := by
  obtain ⟨m, round, sticky⟩ := em
  cases round with
  | false => cases sticky <;> exact .inl rfl
  | true =>
    cases sticky with
    | true => exact .inr ⟨rfl, rfl⟩
    | false =>
      show m + m % 2 = m ∨ true = true ∧ m + m % 2 = m + 1
      obtain even | odd := Nat.mod_two_eq_zero_or_one m
      · rw [even]
        exact .inl rfl
      · rw [odd]
        exact .inr ⟨rfl, rfl⟩

theorem roundedMantissa_le (em : ExtendedMantissa) : em.roundedMantissa ≤ em.mantissa + 1 := by
  obtain same | ⟨_, up⟩ := rounded_cases em <;> omega

theorem mantissa_le_rounded (em : ExtendedMantissa) : em.mantissa ≤ em.roundedMantissa := by
  obtain same | ⟨_, up⟩ := rounded_cases em <;> omega

/-- Rounding an exact mantissa adds half a unit of the last place at most. -/
theorem two_mul_rounded_le (m n : Nat) :
    2 * ((ExtendedMantissa.ofMantissaAndAccuracy m .exact >>> n).roundedMantissa * 2 ^ n) ≤ 2 * m + 2 ^ n := by
  have cut := mantissa_shift (ExtendedMantissa.ofMantissaAndAccuracy m .exact) n
  change _ = m / 2 ^ n at cut
  have parts := Nat.div_add_mod' m (2 ^ n)
  obtain same | ⟨set, up⟩ := rounded_cases (ExtendedMantissa.ofMantissaAndAccuracy m .exact >>> n)
  · rw [same, cut]
    omega
  · have half := half_le_of_roundBit m n set
    rw [up, cut, Nat.add_mul]
    omega

/-! ## Rounding a mantissa and an exponent -/

/-- The exponent at which a number has 53 bits, or the least one. -/
def target (m : Nat) (e : Int) : Int := max (m.log2 + e - 52) (-1074)

theorem targetExponent_eq (m : Nat) (e : Int) :
    Format.binary64.targetExponent (totalExponent m e) = target m e := by
  have mantissaBits : (Format.binary64.mantissaBits : Int) = 53 := rfl
  have minExponent : Format.binary64.minExponent = -1074 := rfl
  rw [Format.targetExponent, totalExponent, mantissaBits, minExponent, target]
  omega

/-- The mantissa after the first shift. -/
def rounded (m : Nat) (e : Int) (accuracy : Accuracy) : Nat :=
  (ExtendedMantissa.ofMantissaAndAccuracy m accuracy >>> (target m e - e).toNat).roundedMantissa

/-- A result of rounding is zero, or it is the rounded mantissa, cut once more where that has become too long. -/
theorem roundWithAccuracy_cases (s : Sign) (m : Nat) (e : Int) (accuracy : Accuracy) :
    roundWithAccuracy .binary64 s m e accuracy = .zero s ∧
        rounded m e accuracy / 2 ^ (target (rounded m e accuracy) (max e (target m e)) - max e (target m e)).toNat = 0 ∨
      ∃ positive, roundWithAccuracy .binary64 s m e accuracy =
        .finite s (rounded m e accuracy / 2 ^ (target (rounded m e accuracy) (max e (target m e)) -
          max e (target m e)).toNat)
          (max (max e (target m e)) (target (rounded m e accuracy) (max e (target m e)))) positive := by
  have first : e + ((target m e - e).toNat : Int) = max e (target m e) := by omega
  have second (a b : Int) : a + ((b - a).toNat : Int) = max a b := by omega
  have mantissa : (shiftToTargetExponent .binary64 (shiftToTargetExponent .binary64 m e accuracy).1.roundedMantissa
      (shiftToTargetExponent .binary64 m e accuracy).2 .exact).1.mantissa =
      rounded m e accuracy / 2 ^ (target (rounded m e accuracy) (max e (target m e)) - max e (target m e)).toNat := by
    simp only [shiftToTargetExponent, shiftToExponent, targetExponent_eq, first, mantissa_shift]
    rfl
  have exponent : (shiftToTargetExponent .binary64 (shiftToTargetExponent .binary64 m e accuracy).1.roundedMantissa
      (shiftToTargetExponent .binary64 m e accuracy).2 .exact).2 =
      max (max e (target m e)) (target (rounded m e accuracy) (max e (target m e))) := by
    simp only [shiftToTargetExponent, shiftToExponent, targetExponent_eq, first, second]
    rfl
  unfold roundWithAccuracy
  dsimp only
  by_cases vanishes : (shiftToTargetExponent .binary64 (shiftToTargetExponent .binary64 m e accuracy).1.roundedMantissa
      (shiftToTargetExponent .binary64 m e accuracy).2 .exact).1.mantissa = 0
  · rw [dif_pos vanishes]
    rw [mantissa] at vanishes
    exact .inl ⟨rfl, vanishes⟩
  · rw [dif_neg vanishes]
    rw [mantissa] at vanishes
    refine .inr ⟨Nat.pos_of_ne_zero vanishes, ?_⟩
    rw [UnpackedFloat.finite.injEq]
    exact ⟨rfl, mantissa, exponent⟩

section Value

variable {m : Nat} {e : Int}

theorem value_pos (positive : 0 < m) : 0 < value m e :=
  mul_pos (Nat.cast_pos.2 positive) (zpow_pos two_pos e)

/-- A number has the size of its leading bit. -/
theorem zpow_log2_le (positive : 0 < m) : (2 : ℚ) ^ (m.log2 + e : Int) ≤ value m e := by
  have leading : ((2 ^ m.log2 : Nat) : ℚ) ≤ m := Nat.cast_le.2 (Nat.log2_self_le (Nat.pos_iff_ne_zero.1 positive))
  rw [zpow_add₀ two_ne_zero, zpow_natCast, value]
  push_cast at leading
  exact mul_le_mul_of_nonneg_right leading (zpow_pos two_pos e).le
/-- Bits that are shifted out are lost. -/
theorem value_shift_le (m n : Nat) (e : Int) : value (m / 2 ^ n) (e + n) ≤ value m e := by
  have cut : ((m / 2 ^ n * 2 ^ n : Nat) : ℚ) ≤ m := Nat.cast_le.2 (Nat.div_mul_le_self m (2 ^ n))
  push_cast at cut
  rw [value, value, zpow_add₀ two_ne_zero, zpow_natCast]
  calc ((m / 2 ^ n : Nat) : ℚ) * (2 ^ e * 2 ^ n)
      = ((m / 2 ^ n : Nat) : ℚ) * 2 ^ n * 2 ^ e := by ring
    _ ≤ m * 2 ^ e := mul_le_mul_of_nonneg_right cut (zpow_pos two_pos e).le

/-- The first rounding adds half a unit of the last place at most. -/
theorem value_rounded_le :
    2 * value (rounded m e .exact) (max e (target m e)) ≤ 2 * value m e + 2 ^ max e (target m e) := by
  have bound := two_mul_rounded_le m (target m e - e).toNat
  have first : max e (target m e) = e + ((target m e - e).toNat : Int) := by omega
  rw [first, value, value, rounded, zpow_add₀ two_ne_zero, zpow_natCast]
  generalize (ExtendedMantissa.ofMantissaAndAccuracy m .exact >>> (target m e - e).toNat).roundedMantissa = r at bound ⊢
  generalize (target m e - e).toNat = k at bound ⊢
  have cast : (2 : ℚ) * (r * 2 ^ k) ≤ 2 * m + 2 ^ k := by exact_mod_cast bound
  have scaled := mul_le_mul_of_nonneg_right cast (zpow_pos (two_pos (α := ℚ)) e).le
  linarith

end Value

/-! ## What a rounded number is -/

section Result

variable {s s' : Sign} {m m' : Nat} {e e' : Int} {accuracy : Accuracy} {positive : 0 < m'}

/-- The parts of a result that is not zero. -/
theorem parts_of_round (result : roundWithAccuracy .binary64 s m e accuracy = .finite s' m' e' positive) :
    m' = rounded m e accuracy / 2 ^ (target (rounded m e accuracy) (max e (target m e)) - max e (target m e)).toNat ∧
      e' = max (max e (target m e)) (target (rounded m e accuracy) (max e (target m e))) := by
  obtain ⟨zero, _⟩ | ⟨_, cut⟩ := roundWithAccuracy_cases s m e accuracy
  · rw [zero] at result
    cases result
  · rw [cut, UnpackedFloat.finite.injEq] at result
    exact ⟨result.2.1.symm, result.2.2.symm⟩

theorem log2_rounded_le (m : Nat) (e : Int) (accuracy : Accuracy) :
    (rounded m e accuracy).log2 + (target m e - e).toNat ≤ max m.log2 (target m e - e).toNat + 1 := by
  obtain zero | some := Nat.eq_zero_or_pos (rounded m e accuracy)
  · rw [zero]
    simp only [Nat.log2_zero]
    omega
  have up := roundedMantissa_le (ExtendedMantissa.ofMantissaAndAccuracy m accuracy >>> (target m e - e).toNat)
  have mantissa : (ExtendedMantissa.ofMantissaAndAccuracy m accuracy).mantissa = m := by
    cases accuracy with
    | exact => rfl
    | inexact order => cases order <;> rfl
  rw [mantissa_shift, mantissa] at up
  change rounded m e accuracy ≤ _ at up
  generalize (target m e - e).toNat = k at up ⊢
  generalize rounded m e accuracy = r at some up ⊢
  have leading : m / 2 ^ k < 2 ^ (m.log2 + 1 - k) := by
    by_cases long : k ≤ m.log2
    · rw [Nat.div_lt_iff_lt_mul (Nat.two_pow_pos k), ← Nat.pow_add, Nat.sub_add_cancel (by omega)]
      exact Nat.lt_log2_self
    · have cut : m < 2 ^ k := Nat.lt_of_lt_of_le Nat.lt_log2_self (Nat.pow_le_pow_right (by decide) (by omega))
      rw [Nat.div_eq_of_lt cut]
      exact Nat.two_pow_pos _
  have bound : r < 2 ^ (m.log2 + 1 - k + 1) := by
    rw [Nat.pow_succ]
    omega
  have log := (Nat.log2_lt (by omega)).2 bound
  omega

/-- Rounding moves the exponent by one at most. -/
theorem exponent_le (result : roundWithAccuracy .binary64 s m e accuracy = .finite s' m' e' positive) :
    e' ≤ max e (target m e) + 1 := by
  obtain ⟨_, exponent⟩ := parts_of_round result
  have log := log2_rounded_le m e accuracy
  rw [exponent]
  unfold target at log ⊢
  omega

/-- A number is rounded to one beyond the range only if it is at least half a unit above the greatest. -/
theorem overflow_le (enough : 52 ≤ m.log2)
    (result : roundWithAccuracy .binary64 s m e .exact = .finite s' m' e' positive) (large : 972 ≤ e') :
    (2 ^ 54 - 1) * (2 : ℚ) ^ (971 : Int) ≤ 2 * value m e := by
  obtain ⟨cut, exponent⟩ := parts_of_round result
  have some : 0 < m := by
    apply Nat.pos_of_ne_zero
    rintro rfl
    exact absurd enough (by decide)
  have unit : (0 : ℚ) < 2 ^ (971 : Int) := zpow_pos two_pos 971
  have limit : (2 : ℚ) ^ (53 + 971 : Int) = 2 ^ 53 * 2 ^ (971 : Int) := zpow_add₀ two_ne_zero 53 971
  by_cases first : 972 ≤ max e (target m e)
  · -- the number itself has its leading bit beyond the range
    have high : (53 + 971 : Int) ≤ m.log2 + e := by
      unfold target at first
      omega
    have power : (2 : ℚ) ^ (53 + 971 : Int) ≤ 2 ^ (m.log2 + e : Int) := zpow_le_zpow_right₀ one_le_two high
    have leading := zpow_log2_le (e := e) some
    rw [limit] at power
    generalize (2 : ℚ) ^ (971 : Int) = u at unit power ⊢
    linarith
  · -- rounding up has moved the leading bit there
    have rises : 0 < rounded m e .exact := by
      apply Nat.pos_of_ne_zero
      intro zero
      rw [zero, Nat.zero_div] at cut
      omega
    have high : (53 + 971 : Int) ≤ (rounded m e .exact).log2 + max e (target m e) := by
      unfold target at first exponent ⊢
      omega
    have power : (2 : ℚ) ^ (53 + 971 : Int) ≤ 2 ^ ((rounded m e .exact).log2 + max e (target m e) : Int) :=
      zpow_le_zpow_right₀ one_le_two high
    have leading := zpow_log2_le (e := max e (target m e)) rises
    have added := value_rounded_le (m := m) (e := e)
    have ulp : (2 : ℚ) ^ max e (target m e) ≤ 2 ^ (971 : Int) := zpow_le_zpow_right₀ one_le_two (by omega)
    rw [limit] at power
    generalize (2 : ℚ) ^ (971 : Int) = u at unit power ulp ⊢
    linarith

/-- A result exceeds the number by half a unit of the last place at most. -/
theorem value_result_le (result : roundWithAccuracy .binary64 s m e .exact = .finite s' m' e' positive) :
    2 * value m' e' ≤ 2 * value m e + 2 ^ max e (target m e) := by
  obtain ⟨rfl, rfl⟩ := parts_of_round result
  have added := value_rounded_le (m := m) (e := e)
  have shift := value_shift_le (rounded m e .exact)
    (target (rounded m e .exact) (max e (target m e)) - max e (target m e)).toNat (max e (target m e))
  have sum : max e (target m e) +
      ((target (rounded m e .exact) (max e (target m e)) - max e (target m e)).toNat : Int) =
      max (max e (target m e)) (target (rounded m e .exact) (max e (target m e))) := by omega
  rw [sum] at shift
  linarith

end Result

/-! ## Numbers of 53 bits -/

section Normal

variable {m : Nat} {e : Int}

/-- A number with enough bits, not below the least one of 53 bits, is rounded to 53 bits or the number after them. -/
theorem rounded_bounds (some : 0 < m) (enough : 52 ≤ m.log2) (normal : -1022 ≤ m.log2 + e) :
    2 ^ 52 ≤ rounded m e .exact ∧ rounded m e .exact ≤ 2 ^ 53 := by
  have shift : (target m e - e).toNat = m.log2 - 52 := by
    unfold target
    omega
  have cut := mantissa_shift (ExtendedMantissa.ofMantissaAndAccuracy m .exact) (target m e - e).toNat
  change _ = m / 2 ^ (target m e - e).toNat at cut
  have least : 2 ^ 52 ≤ m / 2 ^ (m.log2 - 52) := by
    rw [Nat.le_div_iff_mul_le (Nat.two_pow_pos _), ← Nat.pow_add, Nat.add_sub_cancel' enough]
    exact Nat.log2_self_le (by omega)
  have most : m / 2 ^ (m.log2 - 52) < 2 ^ 53 := by
    rw [Nat.div_lt_iff_lt_mul (Nat.two_pow_pos _), ← Nat.pow_add, show 53 + (m.log2 - 52) = m.log2 + 1 by omega]
    exact Nat.lt_log2_self
  have lower := mantissa_le_rounded (ExtendedMantissa.ofMantissaAndAccuracy m .exact >>> (target m e - e).toNat)
  have upper := roundedMantissa_le (ExtendedMantissa.ofMantissaAndAccuracy m .exact >>> (target m e - e).toNat)
  rw [cut, shift] at lower upper
  rw [rounded, shift]
  omega

/-- The second cut leaves 53 bits and moves the exponent by one at most. -/
theorem cut_bounds (least : 2 ^ 52 ≤ m) (most : m ≤ 2 ^ 53) (low : -1074 ≤ e) :
    (2 ^ 52 ≤ m / 2 ^ (target m e - e).toNat ∧ m / 2 ^ (target m e - e).toNat < 2 ^ 53) ∧ target m e ≤ e + 1 := by
  by_cases long : m = 2 ^ 53
  · have width : m.log2 = 53 := by rw [long, Nat.log2_two_pow]
    have again : (target m e - e).toNat = 1 := by
      unfold target
      omega
    rw [again, long]
    refine ⟨by decide, ?_⟩
    rw [long] at width
    unfold target
    omega
  · have below := (Nat.log2_lt (n := m) (k := 53) (by omega)).2 (by omega)
    have above := (Nat.le_log2 (n := m) (k := 52) (by omega)).2 least
    have kept : (target m e - e).toNat = 0 := by
      unfold target
      omega
    rw [kept, Nat.pow_zero, Nat.div_one]
    unfold target
    omega

/-- A number with enough bits, not below the least one of 53 bits, is rounded to one of 53 bits that exceeds it by a
unit of the 54th bit at most. -/
theorem round_near (s : Sign) (some : 0 < m) (enough : 52 ≤ m.log2) (normal : -1022 ≤ m.log2 + e) :
    ∃ m' e' positive, roundWithAccuracy .binary64 s m e .exact = .finite s m' e' positive ∧
      (2 ^ 52 ≤ m' ∧ m' < 2 ^ 53) ∧ (m.log2 + e - 52 ≤ e' ∧ e' ≤ m.log2 + e - 51) ∧
      value m' e' * 2 ^ 53 ≤ value m e * (2 ^ 53 + 1) := by
  have place : max e (target m e) = m.log2 + e - 52 := by
    unfold target
    omega
  obtain ⟨least, most⟩ := rounded_bounds some enough normal
  obtain ⟨mantissa, exponent⟩ := cut_bounds (e := max e (target m e)) least most (by omega)
  obtain ⟨_, zero⟩ | ⟨positive, result⟩ := roundWithAccuracy_cases s m e .exact
  · rw [zero] at mantissa
    exact absurd mantissa.1 (by decide)
  · refine ⟨_, _, positive, result, mantissa, ⟨by omega, by omega⟩, ?_⟩
    have added := value_result_le result
    have leading := zpow_log2_le (e := e) some
    have scaled : (2 : ℚ) ^ (m.log2 + e : Int) = 2 ^ (m.log2 + e - 52 : Int) * 2 ^ 52 := by
      rw [← zpow_natCast, ← zpow_add₀ two_ne_zero]
      congr 1
      push_cast
      omega
    rw [place] at added ⊢
    rw [scaled] at leading
    generalize (2 : ℚ) ^ (m.log2 + e - 52 : Int) = u at added leading
    linarith

end Normal

end Gazetteer.Decimal

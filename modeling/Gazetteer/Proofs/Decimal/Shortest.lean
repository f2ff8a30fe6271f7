import Gazetteer.Decimal.Shortest
import Mathlib.Algebra.Order.Group.Nat
import Mathlib.Tactic.Ring

/-!
# How large the shortest decimal is

The shortest decimal of a binary fraction has seventeen digits at most (`digits_shortest_le`), a point not far from
them (`exponent_shortest`), and it does not lie above the midpoint to the next binary fraction (`shortest_le`): all
hold for the grid point that is chosen, and cutting trailing zeros changes none.
-/

namespace Gazetteer.Decimal

set_option autoImplicit false

/-! ## Cutting zeros -/

theorem trimmed_eq (s : Scientific) (fuel : Nat) :
    ∃ zeros ≤ fuel, s.digits = (s.trimmed fuel).digits * 10 ^ zeros ∧
      (s.trimmed fuel).exponent = s.exponent + (zeros : Nat) := by
  induction fuel generalizing s with
  | zero => exact ⟨0, Nat.le_refl 0, (Nat.mul_one _).symm, (Int.add_zero _).symm⟩
  | succ fuel ih =>
    rw [Scientific.trimmed]
    split
    · rename_i trailing
      simp only [Bool.and_eq_true, decide_eq_true_eq] at trailing
      obtain ⟨zeros, few, digits, exponent⟩ := ih ⟨s.digits / 10, s.exponent + 1⟩
      refine ⟨zeros + 1, Nat.succ_le_succ few, ?_, ?_⟩
      · rw [Nat.pow_succ, ← Nat.mul_assoc, ← digits]
        show s.digits = s.digits / 10 * 10
        omega
      · rw [exponent]
        show s.exponent + 1 + (zeros : Int) = s.exponent + ((zeros + 1 : Nat) : Int)
        omega
    · exact ⟨0, Nat.zero_le _, (Nat.mul_one _).symm, (Int.add_zero _).symm⟩

/-! ## Magnitude -/

theorem lt_digitCount (n : Nat) : n < 10 ^ digitCount n := by
  unfold digitCount
  split
  · rename_i zero
    rw [zero]
    exact Nat.one_pos
  · exact (Nat.length_toDigits_le_iff (by decide) (Nat.length_toDigits_pos)).1 (Nat.le_refl _)

theorem digitCount_le {n k : Nat} (positive : 0 < k) (small : n < 10 ^ k) : digitCount n ≤ k := by
  unfold digitCount
  split
  · exact Nat.zero_le k
  · exact (Nat.length_toDigits_le_iff (by decide) positive).2 small

/-- The number is below the power of ten of its magnitude. -/
theorem lt_magnitude (num : Nat) {den : Nat} (positive : 0 < den) :
    num * 10 ^ (-magnitude num den).toNat < den * 10 ^ (magnitude num den).toNat := by
  unfold magnitude
  split
  · have below := lt_digitCount (num / den)
    rw [Int.toNat_natCast, Int.toNat_of_nonpos (by omega), Nat.pow_zero, Nat.mul_one, Nat.mul_comm]
    exact (Nat.div_lt_iff_lt_mul positive).1 below
  · rename_i less
    split
    · rename_i j found
      rw [List.find?_range_eq_some] at found
      rw [Int.neg_neg, Int.toNat_natCast, Int.toNat_of_nonpos (by omega), Nat.pow_zero, Nat.mul_one]
      cases j with
      | zero => rw [Nat.pow_zero]; omega
      | succ j =>
        have before := found.2.2 j (Nat.lt_succ_self j)
        simp only [Bool.not_eq_true', decide_eq_false_iff_not] at before
        exact Nat.not_le.1 before
    · rw [Int.neg_zero, Int.toNat_zero, Nat.pow_zero]
      omega

/-- The same with the point moved by some digits. -/
theorem lt_of_lt_magnitude {num den : Nat} {top : Int} (below : num * 10 ^ (-top).toNat < den * 10 ^ top.toNat)
    (k : Nat) :
    num * 10 ^ (-(top - k)).toNat < 10 ^ k * (den * 10 ^ (top - k).toNat) := by
  have exponents : (-(top - k)).toNat + top.toNat = (-top).toNat + ((top - k).toNat + k) := by omega
  have moved := Nat.mul_lt_mul_of_pos_right below (Nat.pow_pos (n := (top - k).toNat + k) (by decide : 0 < 10))
  apply Nat.lt_of_mul_lt_mul_right (a := 10 ^ top.toNat)
  calc num * 10 ^ (-(top - k)).toNat * 10 ^ top.toNat
      = num * 10 ^ (-top).toNat * 10 ^ ((top - k).toNat + k) := by
        rw [Nat.mul_assoc, ← Nat.pow_add, exponents, Nat.pow_add, Nat.mul_assoc]
    _ < den * 10 ^ top.toNat * 10 ^ ((top - k).toNat + k) := moved
    _ = 10 ^ k * (den * 10 ^ (top - k).toNat) * 10 ^ top.toNat := by rw [Nat.pow_add]; ring

theorem magnitude_bounds {num : Nat} (den : Nat) (small : num < 10 ^ 400) :
    -400 ≤ magnitude num den ∧ magnitude num den ≤ 400 := by
  unfold magnitude
  split
  · have few := digitCount_le (by decide) (Nat.lt_of_le_of_lt (Nat.div_le_self num den) small)
    omega
  · split
    · rename_i j found
      have short := (List.find?_range_eq_some.1 found).2.1
      rw [List.mem_range] at short
      omega
    · decide

/-! ## The grid point -/

section Grid

variable {value low high den : Nat} {closed : Bool} {j : Int} {s : Scientific}

/-- A grid point is next to the number and not above the upper bound. -/
theorem onGrid?_le (found : onGrid? value low high den closed j = some s) :
    s.exponent = j ∧ 0 < s.digits ∧ s.digits * (den * 10 ^ j.toNat) ≤ high * 10 ^ (-j).toNat ∧
      s.digits ≤ value * 10 ^ (-j).toNat / (den * 10 ^ j.toNat) + 1 := by
  unfold onGrid? at found
  dsimp only at found
  generalize value * 10 ^ (-j).toNat / (den * 10 ^ j.toNat) = below at found ⊢
  have fits (c : Nat) (inside : (if closed = true then
      decide (low * 10 ^ (-j).toNat ≤ c * (den * 10 ^ j.toNat)) &&
        decide (c * (den * 10 ^ j.toNat) ≤ high * 10 ^ (-j).toNat)
      else decide (low * 10 ^ (-j).toNat < c * (den * 10 ^ j.toNat)) &&
        decide (c * (den * 10 ^ j.toNat) < high * 10 ^ (-j).toNat)) = true) :
      c * (den * 10 ^ j.toNat) ≤ high * 10 ^ (-j).toNat := by
    split at inside
    · simp only [Bool.and_eq_true, decide_eq_true_eq] at inside
      exact inside.2
    · simp only [Bool.and_eq_true, decide_eq_true_eq] at inside
      exact Nat.le_of_lt inside.2
  split at found
  · rename_i first _
    simp only [Bool.and_eq_true, bne_iff_ne] at first
    cases found
    exact ⟨rfl, Nat.pos_of_ne_zero first.2, fits below first.1, Nat.le_succ below⟩
  · rename_i second
    cases found
    exact ⟨rfl, Nat.succ_pos below, fits (below + 1) second, Nat.le_refl _⟩
  · cases found
  · rename_i first second
    simp only [Bool.and_eq_true, bne_iff_ne] at first
    split at found
    · cases found
      exact ⟨rfl, Nat.pos_of_ne_zero first.2, fits below first.1, Nat.le_succ below⟩
    · cases found
      exact ⟨rfl, Nat.succ_pos below, fits (below + 1) second, Nat.le_refl _⟩

end Grid

/-! ## The shortest decimal -/

/-- A finite binary64 number without its sign. -/
structure Binary.Fits (b : Binary) : Prop where
  mantissa : b.mantissa < 2 ^ 53
  low : -1074 ≤ b.exponent
  high : b.exponent ≤ 971
  close : b.closeBelow = true → b.mantissa = 2 ^ 52

/-- What the numerator and the denominator of the number and of the upper midpoint are multiplied with. -/
def Binary.up (b : Binary) : Nat := 2 ^ (b.exponent - 2).toNat

def Binary.down (b : Binary) : Nat := 2 ^ (-(b.exponent - 2)).toNat

theorem Binary.down_pos (b : Binary) : 0 < b.down := Nat.two_pow_pos _

theorem Binary.up_le (b : Binary) {k : Nat} (high : b.exponent ≤ k + 2) : b.up ≤ 2 ^ k :=
  Nat.pow_le_pow_right (by decide) (by omega)

/-- Either no grid point was found, or one within seventeen digits of the magnitude was, and its zeros cut. -/
theorem shortest_cases (b : Binary) :
    shortest b = ⟨0, 0⟩ ∨
      ∃ (n : Nat) (closed : Bool) (low : Nat) (found : Scientific), n < 17 ∧
        onGrid? (4 * b.mantissa * b.up) low ((4 * b.mantissa + 2) * b.up) b.down closed
          (magnitude (4 * b.mantissa * b.up) b.down - (n + 1 : Nat)) = some found ∧
        shortest b = found.trimmed 20 := by
  unfold shortest
  dsimp only
  have up : Nat.pow 2 (b.exponent - 2).toNat = b.up := rfl
  have down : Nat.pow 2 (-(b.exponent - 2)).toNat = b.down := rfl
  rw [up, down]
  generalize search : List.findSome? _ (List.range 17) = result
  cases result with
  | none => exact Or.inl rfl
  | some found =>
    obtain ⟨n, member, point⟩ := List.exists_of_findSome?_eq_some search
    exact Or.inr ⟨n, _, _, found, List.mem_range.1 member, point, rfl⟩

variable {b : Binary}

/-- The number as a numerator stays far below the magnitudes that are tried. -/
theorem Binary.Fits.value_lt (fits : b.Fits) : 4 * b.mantissa * b.up < 10 ^ 400 := by
  have mantissa := fits.mantissa
  calc 4 * b.mantissa * b.up ≤ 2 ^ 55 * 2 ^ 969 := Nat.mul_le_mul (by omega) (b.up_le fits.high)
    _ < 10 ^ 400 := by decide +kernel

theorem digits_shortest_le (b : Binary) : (shortest b).digits ≤ 10 ^ 17 := by
  obtain none | ⟨n, closed, low, found, few, point, cut⟩ := shortest_cases b
  · rw [none]
    exact Nat.zero_le _
  · obtain ⟨_, _, _, near⟩ := onGrid?_le point
    obtain ⟨zeros, _, digits, _⟩ := trimmed_eq found 20
    have below := lt_magnitude (4 * b.mantissa * b.up) b.down_pos
    generalize magnitude (4 * b.mantissa * b.up) b.down = top at near below
    generalize 4 * b.mantissa * b.up = value at near below
    have short : value * 10 ^ (-(top - (n + 1 : Nat))).toNat / (b.down * 10 ^ (top - (n + 1 : Nat)).toNat) <
        10 ^ (n + 1) :=
      (Nat.div_lt_iff_lt_mul (Nat.mul_pos b.down_pos (Nat.pow_pos (by decide)))).2 (lt_of_lt_magnitude below (n + 1))
    rw [cut]
    calc (found.trimmed 20).digits ≤ (found.trimmed 20).digits * 10 ^ zeros :=
          Nat.le_mul_of_pos_right _ (Nat.pow_pos (by decide))
      _ = found.digits := digits.symm
      _ ≤ _ := near
      _ ≤ 10 ^ (n + 1) := short
      _ ≤ 10 ^ 17 := Nat.pow_le_pow_right (by decide) few

theorem digits_shortest_pos (point : shortest b ≠ ⟨0, 0⟩) : 0 < (shortest b).digits := by
  obtain none | ⟨n, closed, low, found, _, found?, cut⟩ := shortest_cases b
  · exact absurd none point
  · obtain ⟨_, positive, _, _⟩ := onGrid?_le found?
    obtain ⟨zeros, _, digits, _⟩ := trimmed_eq found 20
    rw [cut]
    rw [digits] at positive
    exact Nat.pos_of_mul_pos_right positive

theorem exponent_shortest (fits : b.Fits) : -417 ≤ (shortest b).exponent ∧ (shortest b).exponent ≤ 420 := by
  obtain none | ⟨n, closed, low, found, few, point, cut⟩ := shortest_cases b
  · rw [none]
    decide
  · obtain ⟨place, _, _, _⟩ := onGrid?_le point
    obtain ⟨zeros, short, _, exponent⟩ := trimmed_eq found 20
    have bounds := magnitude_bounds b.down fits.value_lt
    rw [cut, exponent, place]
    omega

/-- A shortest decimal that is a natural number is not above the midpoint to the next binary fraction. -/
theorem shortest_le (b : Binary) (whole : 0 ≤ (shortest b).exponent) :
    (shortest b).digits * 10 ^ (shortest b).exponent.toNat * b.down ≤ (4 * b.mantissa + 2) * b.up := by
  obtain none | ⟨n, closed, low, found, _, point, cut⟩ := shortest_cases b
  · rw [none]
    exact Nat.le_trans (Nat.le_of_eq (by simp)) (Nat.zero_le _)
  · obtain ⟨place, _, below, _⟩ := onGrid?_le point
    obtain ⟨zeros, _, digits, exponent⟩ := trimmed_eq found 20
    rw [cut] at whole ⊢
    generalize found.trimmed 20 = s at *
    generalize magnitude (4 * b.mantissa * b.up) b.down - (n + 1 : Nat) = j at *
    have exponents : zeros + j.toNat = s.exponent.toNat + (-j).toNat := by omega
    apply Nat.le_of_mul_le_mul_right (c := 10 ^ (-j).toNat) _ (Nat.pow_pos (by decide))
    calc s.digits * 10 ^ s.exponent.toNat * b.down * 10 ^ (-j).toNat
        = s.digits * 10 ^ (zeros + j.toNat) * b.down := by rw [exponents, Nat.pow_add]; ring
      _ = found.digits * (b.down * 10 ^ j.toNat) := by rw [digits, Nat.pow_add]; ring
      _ ≤ _ := below

end Gazetteer.Decimal

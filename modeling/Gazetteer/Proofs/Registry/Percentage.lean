import Gazetteer.Registry.Coverage
import Mathlib.Algebra.Order.Round
import Mathlib.Data.Rat.Floor
import Mathlib.Tactic.FieldSimp
import Mathlib.Tactic.Linarith

/-!
# Percentages in machine words

The percentage of a part and the filled places of a bar are computed in words that could overflow.  As long as two
hundred and one times the total fits into a word, no step of the percentage leaves its word (`Coverage.ExactSteps`), so
the byte is the nearest whole number (`Coverage.Percentage`).  Then a bar whose places fit is filled in proportion
(`Coverage.Bar`).
-/

namespace Gazetteer.Coverage

set_option autoImplicit false

variable {part documented total width : Nat}

/-! ## Words -/

theorem toNat_mul_of_lt {a b : UInt64} (fits : a.toNat * b.toNat < UInt64.size) :
    (a * b).toNat = a.toNat * b.toNat := by
  rw [UInt64.toNat_mul]
  exact Nat.mod_eq_of_lt fits

theorem toNat_add_of_lt {a b : UInt64} (fits : a.toNat + b.toNat < UInt64.size) :
    (a + b).toNat = a.toNat + b.toNat := by
  rw [UInt64.toNat_add]
  exact Nat.mod_eq_of_lt fits

/-! ## Steps of the percentage -/

/-- No step of the percentage of a part leaves its word: each is the number that is meant, nothing is divided by zero,
and a byte holds the quotient. -/
structure ExactSteps (part total : Nat) : Prop where
  product : (UInt64.ofNat part * 200).toNat = part * 200
  dividend : (dividend (.ofNat part) (.ofNat total)).toNat = part * 200 + total
  divisor : (divisor (.ofNat total)).toNat = 2 * total
  nonzero : total ≠ 0 → Coverage.divisor (.ofNat total) ≠ 0
  narrow : (Coverage.dividend (.ofNat part) (.ofNat total) / Coverage.divisor (.ofNat total)).toUInt8.toNat =
    (Coverage.dividend (.ofNat part) (.ofNat total) / Coverage.divisor (.ofNat total)).toNat

/-- A part is at most a hundred percent, rounded half up. -/
theorem quotient_le (atMost : part ≤ total) : (part * 200 + total) / (2 * total) ≤ 100 := by
  rcases Nat.eq_zero_or_pos total with rfl | some
  · simp
  · refine Nat.lt_succ_iff.1 ((Nat.div_lt_iff_lt_mul (by omega)).2 ?_)
    omega

theorem exactSteps (atMost : part ≤ total) (fits : 201 * total < UInt64.size) : ExactSteps part total := by
  have part_word : (UInt64.ofNat part).toNat = part := UInt64.toNat_ofNat_of_lt' (by omega)
  have total_word : (UInt64.ofNat total).toNat = total := UInt64.toNat_ofNat_of_lt' (by omega)
  have product : (UInt64.ofNat part * 200).toNat = part * 200 := by
    have factor : (200 : UInt64).toNat = 200 := rfl
    rw [toNat_mul_of_lt, part_word, factor]
    rw [part_word, factor]
    omega
  have dividend_word : (dividend (.ofNat part) (.ofNat total)).toNat = part * 200 + total := by
    rw [dividend, toNat_add_of_lt, product, total_word]
    rw [product, total_word]
    omega
  have divisor_word : (divisor (.ofNat total)).toNat = 2 * total := by
    have factor : (2 : UInt64).toNat = 2 := rfl
    rw [divisor, toNat_mul_of_lt, total_word, factor]
    rw [total_word, factor]
    omega
  refine ⟨product, dividend_word, divisor_word, fun some zero => ?_, ?_⟩
  · rw [zero, UInt64.toNat_zero] at divisor_word
    omega
  · have quotient := quotient_le atMost
    rw [UInt64.toNat_toUInt8, UInt64.toNat_div, dividend_word, divisor_word]
    exact Nat.mod_eq_of_lt (by omega)

/-- The percentage in words is the one in whole numbers of any size. -/
theorem percent_of (fits : 201 * total < UInt64.size) :
    (of documented total).percent = (min documented total * 200 + total) / (2 * total) := by
  have steps := exactSteps (Nat.min_le_right documented total) fits
  rcases Nat.eq_zero_or_pos total with rfl | some
  · simp [of, percentOf]
  · have filled : UInt64.ofNat total ≠ 0 := by
      intro zero
      have word : (UInt64.ofNat total).toNat = total := UInt64.toNat_ofNat_of_lt' (by omega)
      rw [zero, UInt64.toNat_zero] at word
      omega
    calc (of documented total).percent
        = (dividend (.ofNat (min documented total)) (.ofNat total) / divisor (.ofNat total)).toUInt8.toNat := by
          rw [of, percentOf, if_neg filled]
      _ = (min documented total * 200 + total) / (2 * total) := by
          rw [steps.narrow, UInt64.toNat_div, steps.dividend, steps.divisor]

/-- Adding half a divisor before dividing rounds half up. -/
theorem round_eq_quotient (part : Nat) (some : 0 < total) :
    round ((100 * part : ℚ) / total) = ((part * 200 + total) / (2 * total) : ℕ) := by
  have below : (part * 200 + total) / (2 * total) * (2 * total) ≤ part * 200 + total := Nat.div_mul_le_self _ _
  have above : part * 200 + total < ((part * 200 + total) / (2 * total) + 1) * (2 * total) := by
    rw [mul_comm _ (2 * total)]
    exact Nat.lt_mul_div_succ _ (by omega)
  generalize (part * 200 + total) / (2 * total) = quotient at below above ⊢
  have positive : (0 : ℚ) < total := by exact_mod_cast some
  have below : (quotient * (2 * total) : ℚ) ≤ part * 200 + total := by exact_mod_cast below
  have above : (part * 200 + total : ℚ) < (quotient + 1) * (2 * total) := by exact_mod_cast above
  rw [round_eq_iff, Set.mem_Ico, Int.cast_natCast, le_div_iff₀ positive, div_lt_iff₀ positive]
  constructor <;> linarith

/-- The percentage of the documented part of a total. -/
structure Percentage (documented total : Nat) : Prop where
  exact : ExactSteps (min documented total) total
  none : total = 0 → (of documented total).percent = 0
  /-- It is the nearest whole number, and the greater one if two are as near. -/
  nearest : total ≠ 0 → (of documented total).percent = round ((100 * min documented total : ℚ) / total)
  atMost : (of documented total).percent ≤ 100
  mono : ∀ more, documented ≤ more → (of documented total).percent ≤ (of more total).percent

theorem percentage (documented : Nat) (fits : 201 * total < UInt64.size) : Percentage documented total where
  exact := exactSteps (Nat.min_le_right documented total) fits
  none := by
    rintro rfl
    rw [percent_of fits, Nat.mul_zero, Nat.div_zero]
  nearest some := by
    have rounded := round_eq_quotient (min documented total) (Nat.pos_of_ne_zero some)
    rw [percent_of fits, ← rounded, Nat.cast_min]
  atMost := by
    rw [percent_of fits]
    exact quotient_le (Nat.min_le_right documented total)
  mono more less := by
    rw [percent_of fits, percent_of fits]
    refine Nat.div_le_div_right (Nat.add_le_add_right (Nat.mul_le_mul_right 200 ?_) total)
    exact min_le_min_right total less

/-! ## Bars -/

section Bars

variable {c : Coverage} (atMost : c.percent ≤ 100) (fits : 100 * width + 50 < UInt64.size)

include atMost fits

theorem toNat_share_product : (UInt64.ofNat c.percent * .ofNat width).toNat = c.percent * width := by
  have size : 100 < UInt64.size := by decide
  have percent_word : (UInt64.ofNat c.percent).toNat = c.percent := UInt64.toNat_ofNat_of_lt' (by omega)
  have width_word : (UInt64.ofNat width).toNat = width := UInt64.toNat_ofNat_of_lt' (by omega)
  have less := Nat.mul_le_mul_right width atMost
  rw [toNat_mul_of_lt, percent_word, width_word]
  rw [percent_word, width_word]
  omega

theorem toNat_share_sum : (UInt64.ofNat c.percent * .ofNat width + 50).toNat = c.percent * width + 50 := by
  have half : (50 : UInt64).toNat = 50 := rfl
  have less := Nat.mul_le_mul_right width atMost
  rw [toNat_add_of_lt, toNat_share_product atMost fits, half]
  rw [toNat_share_product atMost fits, half]
  omega

/-- The filled places are a share in whole numbers of any size, and no more than there are. -/
theorem filled_eq : c.filled width = (c.percent * width + 50) / 100 ∧ (c.percent * width + 50) / 100 ≤ width := by
  have less := Nat.mul_le_mul_right width atMost
  have inside : (c.percent * width + 50) / 100 ≤ width := by omega
  have whole : (100 : UInt64).toNat = 100 := rfl
  refine ⟨?_, inside⟩
  rw [filled, share, UInt64.toNat_div, toNat_share_sum atMost fits, whole]
  exact Nat.min_eq_left inside

end Bars

/-- The bar of a coverage. -/
structure Bar (c : Coverage) (width : Nat) : Prop where
  product : (UInt64.ofNat c.percent * .ofNat width).toNat = c.percent * width
  sum : (UInt64.ofNat c.percent * .ofNat width + 50).toNat = c.percent * width + 50
  atMost : c.filled width ≤ width
  /-- Within brackets stand the filled places and then the others, as many as there are. -/
  text : (c.bar width).toList =
    '[' :: (List.replicate (c.filled width) '#' ++ List.replicate (width - c.filled width) '-' ++ [']'])
  none : c.percent = 0 → c.filled width = 0
  full : c.percent = 100 → c.filled width = width
  mono : ∀ more : Coverage, more.percent ≤ 100 → c.percent ≤ more.percent → c.filled width ≤ more.filled width

theorem bar_of_percent {c : Coverage} (atMost : c.percent ≤ 100) (fits : 100 * width + 50 < UInt64.size) :
    Bar c width where
  product := toNat_share_product atMost fits
  sum := toNat_share_sum atMost fits
  atMost := Nat.min_le_right _ _
  text := by simp [bar]
  none zero := by rw [(filled_eq atMost fits).1, zero, Nat.zero_mul]
  full whole := by
    rw [(filled_eq atMost fits).1, whole]
    omega
  mono more atMost' less := by
    rw [(filled_eq atMost fits).1, (filled_eq atMost' fits).1]
    exact Nat.div_le_div_right (Nat.add_le_add_right (Nat.mul_le_mul_right width less) 50)

/-- As long as the numbers fit, the percentage is the nearest whole number and the bar is filled in proportion to it. -/
theorem percentage_and_bar (documented : Nat) (fits : 201 * total < UInt64.size)
    (wide : 100 * width + 50 < UInt64.size) : Percentage documented total ∧ Bar (of documented total) width :=
  ⟨percentage documented fits, bar_of_percent (percentage documented fits).atMost wide⟩

/-- The largest total that fits is covered to a half, and an odd number of places is filled to the greater part. -/
theorem percentage_and_bar_largest :
    201 * 91774846137858465 < UInt64.size ∧ 100 * 5 + 50 < UInt64.size ∧
      ¬ 201 * (91774846137858465 + 1) < UInt64.size ∧
      round ((100 * min 45887423068929233 91774846137858465 : ℚ) / 91774846137858465) = 50 ∧
      (bar (of 45887423068929233 91774846137858465) 5).toList = "[###--]".toList := by
  have fits : 201 * 91774846137858465 < UInt64.size := by decide
  have wide : 100 * 5 + 50 < UInt64.size := by decide
  obtain ⟨percentage, bar⟩ := percentage_and_bar 45887423068929233 fits wide
  have percent : (of 45887423068929233 91774846137858465).percent = 50 := by decide
  have filled : (of 45887423068929233 91774846137858465).filled 5 = 3 := by decide
  have nearest := percentage.nearest (by decide)
  rw [percent] at nearest
  refine ⟨fits, wide, by decide, nearest.symm, ?_⟩
  rw [bar.text, filled]
  rfl

end Gazetteer.Coverage

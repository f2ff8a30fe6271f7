import Mathlib.Algebra.BigOperators.Group.List.Basic
import Mathlib.Algebra.GroupWithZero.Nat

/-!
# Counters

Records of counters are added counter by counter, in words of 32 bits.  Where the whole sum fits into a word, no step on
the way to it overflows, so the counter of a sum shows what its parts show together (`toNat_foldl_add`).
-/

namespace Gazetteer

set_option autoImplicit false

variable {σ α : Type} {count : α → BitVec 32}

/-- What some counts amount to, in whole numbers of any size. -/
def together (count : α → BitVec 32) (xs : List α) : Nat := (xs.map fun x => (count x).toNat).sum

theorem together_cons (x : α) (xs : List α) : together count (x :: xs) = (count x).toNat + together count xs := by
  rw [together, List.map_cons, List.sum_cons, together]

theorem together_append (xs ys : List α) : together count (xs ++ ys) = together count xs + together count ys := by
  rw [together, List.map_append, List.sum_append, together, together]

theorem together_perm {xs ys : List α} (perm : xs.Perm ys) : together count xs = together count ys :=
  (perm.map _).sum_eq

theorem together_le_length (atMost : ∀ x, (count x).toNat ≤ 1) (xs : List α) : together count xs ≤ xs.length := by
  induction xs with
  | nil => exact Nat.le_refl 0
  | cons x xs ih =>
    have one := atMost x
    rw [together_cons, List.length_cons]
    omega

/-- A counter of a record: that of a sum is the sum of the counters. -/
def IsCounter [Add σ] (counter : σ → BitVec 32) : Prop := ∀ s t, counter (s + t) = counter s + counter t

/-- If the whole sum fits into a word, a counter of the sum shows what the counters of the parts amount to. -/
theorem toNat_foldl_add [Add σ] {counter : σ → BitVec 32} (adds : IsCounter counter) (part : α → σ) {xs : List α}
    {start : σ} (fits : (counter start).toNat + together (fun x => counter (part x)) xs < 2 ^ 32) :
    (counter (xs.foldl (fun sum x => sum + part x) start)).toNat =
      (counter start).toNat + together (fun x => counter (part x)) xs := by
  induction xs generalizing start with
  | nil => exact (Nat.add_zero _).symm
  | cons x xs ih =>
    rw [together_cons, ← Nat.add_assoc] at fits
    have step : (counter (start + part x)).toNat = (counter start).toNat + (counter (part x)).toNat := by
      rw [adds, BitVec.toNat_add_of_lt (by omega)]
    rw [List.foldl_cons, ih (by rwa [step]), step, together_cons, Nat.add_assoc]

end Gazetteer

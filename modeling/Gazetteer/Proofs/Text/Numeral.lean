import Gazetteer.Json.Number
import Gazetteer.Text.Integer
import Gazetteer.Time.Timestamp
import Mathlib.Algebra.Order.Group.Nat

/-!
# Numerals

The decimal digits of a number are digits, the first not a zero, stand for the number and are as many as its size says;
zeros in front of them change neither.  A reader of digits that meets them takes exactly them, and an integer of 64 bits
is read from its text (`Text.integer?_toString`).
-/

namespace Gazetteer

set_option autoImplicit false

/-! ## Digits -/

theorem isDigit_toDigits (n : Nat) : ∀ c ∈ Nat.toDigits 10 n, c.isDigit = true :=
  fun _ member => Nat.isDigit_of_mem_toDigits (by decide) (by decide) member

theorem Json.digit?_eq (c : Char) : Json.digit? c = if c.isDigit then some (c.toNat - '0'.toNat) else none := rfl

theorem Time.digit?_eq (c : Char) : Time.digit? c = if c.isDigit then some (c.toNat - '0'.toNat) else none := rfl

theorem Text.isBlank_of_isDigit {c : Char} (digit : c.isDigit = true) : Text.isBlank c = false := by
  have bounds : 48 ≤ c.toNat ∧ c.toNat ≤ 57 := Char.isDigit_iff_toNat.1 digit
  simp only [Text.isBlank, Bool.or_eq_false_iff, Bool.and_eq_false_iff, decide_eq_false_iff_not, beq_eq_false_iff_ne]
  omega

/-- The numeral of a number other than zero starts with a digit other than zero. -/
theorem head_toDigits {n : Nat} (positive : 0 < n) :
    ∃ c cs, Nat.toDigits 10 n = c :: cs ∧ c ≠ '0' := by
  induction n using Nat.strongRecOn with
  | _ n ih =>
    obtain small | large := Nat.lt_or_ge n 10
    · refine ⟨n.digitChar, [], Nat.toDigits_of_lt_base small, ?_⟩
      have digits : ∀ k < 10, 0 < k → Nat.digitChar k ≠ '0' := by decide
      exact digits n small positive
    · obtain ⟨c, cs, lead, other⟩ := ih (n / 10) (by omega) (by omega)
      refine ⟨c, cs ++ [(n % 10).digitChar], ?_, other⟩
      rw [Nat.toDigits_of_base_le (by decide) large, lead, List.cons_append]

theorem le_ofDigitChars (ds : List Char) (n : Nat) : n ≤ Nat.ofDigitChars 10 ds n := by
  induction ds generalizing n with
  | nil => exact Nat.le_refl n
  | cons c ds ih =>
    rw [Nat.ofDigitChars_cons]
    have further := ih (10 * n + (c.toNat - '0'.toNat))
    omega

/-! ## Integers -/

theorem toList_toString_of_nonneg {k : Int} (nonnegative : 0 ≤ k) :
    (toString k).toList = Nat.toDigits 10 k.toNat := by
  rw [Int.toString_eq_repr, Int.repr_eq_if, if_pos nonnegative, Nat.toList_repr]

theorem toList_toString_of_neg {k : Int} (negative : k < 0) :
    (toString k).toList = '-' :: Nat.toDigits 10 (-k).toNat := by
  rw [Int.toString_eq_repr, Int.repr_eq_if, if_neg (by omega), String.toList_append, Nat.toList_repr]
  rfl

/-- The characters of an integer are digits and a hyphen. -/
theorem digit_of_mem_toString (k : Int) : ∀ c ∈ (toString k).toList, c = '-' ∨ c.isDigit = true := by
  intro c member
  obtain negative | nonnegative := Int.lt_or_le k 0
  · rw [toList_toString_of_neg negative] at member
    obtain hyphen | digit := List.mem_cons.1 member
    · exact .inl hyphen
    · exact .inr (isDigit_toDigits _ c digit)
  · rw [toList_toString_of_nonneg nonnegative] at member
    exact .inr (isDigit_toDigits _ c member)

namespace Text

theorem ofDigits_toDigits (n : Nat) : ofDigits (Nat.toDigits 10 n) = n := by
  have value (ds : List Char) (n : Nat) :
      ds.foldl (fun n c => n * 10 + (c.toNat - 48)) n = Nat.ofDigitChars 10 ds n := by
    induction ds generalizing n with
    | nil => rfl
    | cons c ds ih =>
      rw [List.foldl_cons, ih, Nat.ofDigitChars_cons, Nat.mul_comm]
      rfl
  rw [ofDigits, value, Nat.ofDigitChars_ten_toDigits]

/-- The value of digits, with a sign in front of them or without. -/
theorem integer?_signed (negative : Bool) (n : Nat) :
    integer? ((if negative then ['-'] else []) ++ Nat.toDigits 10 n) =
      let k : Int := if negative then -n else n
      if -9223372036854775808 ≤ k && k < 9223372036854775808 then some k else none := by
  have numeral : ((Nat.toDigits 10 n).isEmpty || !(Nat.toDigits 10 n).all Char.isDigit) = false := by
    have all : (Nat.toDigits 10 n).all Char.isDigit = true := List.all_eq_true.2 (isDigit_toDigits n)
    rw [all, List.isEmpty_eq_false_iff.2 Nat.toDigits_ne_nil]
    rfl
  unfold integer?
  cases negative with
  | true =>
    simp only [if_true, List.cons_append, List.nil_append, numeral, Bool.false_eq_true, if_false, ofDigits_toDigits]
  | false =>
    obtain ⟨c, cs, lead⟩ := List.exists_cons_of_ne_nil (Nat.toDigits_ne_nil (b := 10) (n := n))
    have digit : c.isDigit = true := isDigit_toDigits n c (by rw [lead]; exact List.mem_cons_self)
    have minus : c ≠ '-' := by rintro rfl; exact absurd digit (by decide)
    have plus : c ≠ '+' := by rintro rfl; exact absurd digit (by decide)
    rw [lead] at numeral ⊢
    simp only [Bool.false_eq_true, if_false, List.nil_append]
    split
    · rename_i signed
      exact absurd (List.cons.inj signed).1 minus
    · rename_i signed
      exact absurd (List.cons.inj signed).1 plus
    · have value : ofDigits (c :: cs) = n := by rw [← lead, ofDigits_toDigits]
      simp only [numeral, Bool.false_eq_true, if_false, value]

/-- An integer that fits 64 bits is read from its text. -/
theorem integer?_toString {k : Int} (least : -9223372036854775808 ≤ k) (below : k < 9223372036854775808) :
    integer? (toString k).toList = some k := by
  have range : (decide (-9223372036854775808 ≤ k) && decide (k < 9223372036854775808)) = true := by
    rw [Bool.and_eq_true, decide_eq_true_eq, decide_eq_true_eq]
    exact ⟨least, below⟩
  obtain negative | nonnegative := Int.lt_or_le k 0
  · have value : -((-k).toNat : Int) = k := by omega
    have read := integer?_signed true (-k).toNat
    simp only [if_true, value] at read
    rw [range, if_pos rfl] at read
    rw [toList_toString_of_neg negative]
    exact read
  · have value : (k.toNat : Int) = k := Int.toNat_of_nonneg nonnegative
    have read := integer?_signed false k.toNat
    simp only [Bool.false_eq_true, if_false, value] at read
    rw [range, if_pos rfl] at read
    rw [toList_toString_of_nonneg nonnegative]
    exact read

end Text

namespace Time

/-! ## Numbers filled with zeros -/

theorem toList_padded (width n : Nat) :
    (Instant.padded width n).toList =
      List.replicate (width - (Nat.toDigits 10 n).length) '0' ++ Nat.toDigits 10 n := by
  simp [Instant.padded, ← String.length_toList]

theorem isDigit_padded (width n : Nat) : ∀ c ∈ (Instant.padded width n).toList, c.isDigit = true := by
  intro c member
  rw [toList_padded, List.mem_append, List.mem_replicate] at member
  obtain ⟨_, rfl⟩ | digit := member
  · rfl
  · exact isDigit_toDigits n c digit

theorem value_padded (width n : Nat) : Nat.ofDigitChars 10 (Instant.padded width n).toList 0 = n := by
  rw [toList_padded, Nat.ofDigitChars_append, Nat.ofDigitChars_replicate_zero, Nat.mul_zero,
    Nat.ofDigitChars_ten_toDigits]

theorem length_padded (width n : Nat) (positive : 0 < width) (fits : n < 10 ^ width) :
    (Instant.padded width n).toList.length = width := by
  have short := (Nat.length_toDigits_le_iff (by decide) positive).2 fits
  rw [toList_padded, List.length_append, List.length_replicate]
  omega

theorem padded_ne_nil (width n : Nat) : (Instant.padded width n).toList ≠ [] := by
  rw [toList_padded]
  exact List.append_ne_nil_of_right_ne_nil _ Nat.toDigits_ne_nil

/-! ## Reading digits -/

/-- Digits that end where the width is used up, or where something else follows, are read as a number. -/
theorem readDigits_append {ds : List Char} (rest : List Char) (width : Nat) (digits : ∀ c ∈ ds, c.isDigit = true)
    (some : ds ≠ []) (short : ds.length ≤ width) (ends : ds.length = width ∨ rest.head?.any Char.isDigit = false)
    (fits : Nat.ofDigitChars 10 ds 0 < 9223372036854775808) :
    readDigits width (ds ++ rest) = .ok (Nat.ofDigitChars 10 ds 0, rest) := by
  have taken : ((ds ++ rest).take width).takeWhile (fun c => (digit? c).isSome) = ds := by
    rw [List.take_append, List.take_of_length_le short, List.takeWhile_append_of_pos]
    · obtain full | stop := ends
      · rw [full, Nat.sub_self, List.take_zero, List.takeWhile_nil, List.append_nil]
      · cases rest with
        | nil => simp
        | cons c rest =>
          cases room : width - ds.length with
          | zero => simp
          | succ room =>
            have other : c.isDigit = false := stop
            simp [digit?_eq, other]
    · intro c member
      simp [digit?_eq, digits c member]
  have value (n : Nat) : ds.foldl (fun n c => n * 10 + (digit? c).getD 0) n = Nat.ofDigitChars 10 ds n := by
    clear taken fits some short ends
    induction ds generalizing n with
    | nil => rfl
    | cons c ds ih =>
      rw [List.foldl_cons, ih fun d member => digits d (List.mem_cons_of_mem _ member), Nat.ofDigitChars_cons,
        digit?_eq, if_pos (digits c List.mem_cons_self), Option.getD_some, Nat.mul_comm]
  unfold readDigits
  rw [taken]
  obtain ⟨c, ds, rfl⟩ := List.exists_cons_of_ne_nil some
  simp only [value, if_pos fits, List.drop_left]

end Time

end Gazetteer

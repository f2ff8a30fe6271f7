import Gazetteer.Proofs.Outcome
import Gazetteer.Proofs.Text.Numeral
import Gazetteer.Proofs.Time.Calendar

/-!
# Timestamps read back

Every part of a timestamp is read back in front of what follows it, so an instant in range is read back from its text
(`parse_text`).
-/

namespace Gazetteer.Time

set_option autoImplicit false

open Outcome

/-! ## The parts -/

theorem skipBlank_of_isDigit {ds rest : List Char} (digits : ∀ c ∈ ds, c.isDigit = true) (some : ds ≠ []) :
    skipBlank (ds ++ rest) = ds ++ rest := by
  obtain ⟨c, ds, rfl⟩ := List.exists_cons_of_ne_nil some
  have dark := Text.isBlank_of_isDigit (digits c List.mem_cons_self)
  rw [skipBlank, Text.trimStart, List.cons_append, List.dropWhile_cons_of_neg (by simp [dark])]

theorem readField_padded (low high n : Nat) (least : low ≤ n) (most : n ≤ high) (bound : high < 100)
    (rest : List Char) :
    readField low high ((Instant.padded 2 n).toList ++ rest) = .ok (n, rest) := by
  have length := length_padded 2 n (by decide) (by omega)
  have digits := isDigit_padded 2 n
  have value := value_padded 2 n
  have read := readDigits_append rest _ digits (padded_ne_nil 2 n) (Nat.le_of_eq length) (.inl length)
    (by omega)
  rw [readField, skipBlank_of_isDigit digits (padded_ne_nil 2 n), read, value]
  simp [least, most]

theorem readMark_cons (mark : Char) (dark : Text.isBlank mark = false) (rest : List Char) :
    readMark mark (mark :: rest) = .ok rest := by
  rw [readMark, skipBlank, Text.trimStart, List.dropWhile_cons_of_neg (by simp [dark])]
  simp

/-- A signed year: its digits end where something else follows. -/
theorem readDigits_signed (n : Nat) (fits : n < 2147483648) {rest : List Char}
    (ends : rest.head?.any Char.isDigit = false) :
    readDigits ((Instant.padded 4 n).toList ++ rest).length ((Instant.padded 4 n).toList ++ rest) = .ok (n, rest) := by
  have value := value_padded 4 n
  have read := readDigits_append rest ((Instant.padded 4 n).toList ++ rest).length
    (isDigit_padded 4 n) (padded_ne_nil 4 n) (by rw [List.length_append]; omega) (.inr ends) (by omega)
  rw [read, value]

theorem readYear_signed (negative : Bool) {n : Nat} (fits : n < 2147483648) {rest : List Char}
    (ends : rest.head?.any Char.isDigit = false) :
    readYear ((if negative then '-' else '+') :: ((Instant.padded 4 n).toList ++ rest)) =
      .ok (if negative then -(n : Int) else n, rest) := by
  have read := readDigits_signed n fits ends
  have bound : (decide (-2147483648 ≤ (if negative then -(n : Int) else n)) &&
      decide ((if negative then -(n : Int) else n) < 2147483648)) = true := by
    rw [Bool.and_eq_true, decide_eq_true_eq, decide_eq_true_eq]
    split <;> omega
  have dark : Text.isBlank (if negative then '-' else '+') = false := by cases negative <;> decide
  rw [readYear, skipBlank, Text.trimStart, List.dropWhile_cons_of_neg (by rw [dark]; decide)]
  cases negative
  all_goals
    show (readDigits ((Instant.padded 4 n).toList ++ rest).length ((Instant.padded 4 n).toList ++ rest) >>= _) = _
    rw [read, ok_bind]
    dsimp only
    rw [pure_bind]
    exact if_pos bound

/-- A year that is not negative is its digits, behind a plus if there are more than four. -/
theorem readYear_natural {n : Nat} (fits : n < 2147483648) {rest : List Char}
    (ends : rest.head?.any Char.isDigit = false) :
    readYear ((Instant.yearText n).toList ++ rest) = .ok ((n : Int), rest) := by
  have bound : (decide (-2147483648 ≤ (n : Int)) && decide ((n : Int) < 2147483648)) = true := by
    simp only [Bool.and_eq_true, decide_eq_true_eq]
    omega
  unfold Instant.yearText
  split
  · rename_i plain
    simp only [Bool.and_eq_true, decide_eq_true_eq] at plain
    have digits := isDigit_padded 4 n
    have length := length_padded 4 n (by decide) (by omega)
    have value := value_padded 4 n
    have read := readDigits_append rest _ digits (padded_ne_nil 4 _) (Nat.le_of_eq length) (.inl length)
      (by omega)
    rw [Int.toNat_natCast, readYear, skipBlank_of_isDigit digits (padded_ne_nil 4 _)]
    obtain ⟨c, ds, cons⟩ := List.exists_cons_of_ne_nil (padded_ne_nil 4 n)
    have digit : c.isDigit = true := digits c (by rw [cons]; exact List.mem_cons_self)
    rw [value, cons, List.cons_append] at read
    rw [cons, List.cons_append]
    split
    · rename_i minus
      cases minus
      cases digit
    · rename_i plus
      cases plus
      cases digit
    · rw [read, ok_bind]
      dsimp only
      rw [pure_bind, if_pos bound]
  · rw [if_neg (by omega), String.toList_append, show "+".toList = ['+'] from rfl, List.append_assoc,
      List.singleton_append, Int.natAbs_natCast]
    exact readYear_signed false fits ends

/-- A negative year is its digits behind a minus. -/
theorem readYear_negative {n : Nat} (fits : n < 2147483648) (some : n ≠ 0) {rest : List Char}
    (ends : rest.head?.any Char.isDigit = false) :
    readYear ((Instant.yearText (-n)).toList ++ rest) = .ok (-(n : Int), rest) := by
  have far : ¬ (decide (0 ≤ -(n : Int)) && decide (-(n : Int) ≤ 9999)) = true := by
    simp only [Bool.and_eq_true, decide_eq_true_eq]
    omega
  rw [Instant.yearText, if_neg far, if_pos (by omega), String.toList_append, show "-".toList = ['-'] from rfl,
    List.append_assoc, List.singleton_append, Int.natAbs_neg, Int.natAbs_natCast]
  exact readYear_signed true fits ends

theorem readYear_yearText {year : Int} (least : -2147483648 < year) (most : year < 2147483648) {rest : List Char}
    (ends : rest.head?.any Char.isDigit = false) :
    readYear ((Instant.yearText year).toList ++ rest) = .ok (year, rest) := by
  obtain ⟨n, rfl | rfl⟩ := Int.eq_nat_or_neg year
  · exact readYear_natural (by omega) ends
  · by_cases zero : n = 0
    · rw [zero]
      exact readYear_natural (by decide) ends
    · exact readYear_negative (by omega) zero ends

/-- A fraction of `width` digits counts in units of its last digit. -/
theorem readFraction_padded (width n : Nat) (positive : 0 < width) (most : width ≤ 9) (fits : n < 10 ^ width)
    (rest : List Char) :
    readFraction ('.' :: ((Instant.padded width n).toList ++ 'Z' :: rest)) =
      .ok (n * 10 ^ (9 - width), 'Z' :: rest) := by
  have length := length_padded width n positive fits
  have value := value_padded width n
  have bound : 10 ^ width ≤ 10 ^ 9 := Nat.pow_le_pow_right (by decide) most
  have read := readDigits_append ('Z' :: rest) 9 (isDigit_padded width n) (padded_ne_nil width n)
    (by omega) (.inr rfl) (by omega)
  have used : ((Instant.padded width n).toList ++ 'Z' :: rest).length - ('Z' :: rest).length = width := by
    rw [List.length_append, length]
    omega
  have stop : ('Z' :: rest).dropWhile (fun c => (digit? c).isSome) = 'Z' :: rest := rfl
  rw [readFraction, read, value]
  simp only [ok_bind, used, stop]
  rfl

theorem readFraction_fractionText (nanos : Nat) (short : nanos < 1000000000) (rest : List Char) :
    readFraction ((Instant.fractionText nanos).toList ++ 'Z' :: rest) = .ok (nanos, 'Z' :: rest) := by
  unfold Instant.fractionText
  split
  · rename_i whole
    rw [whole]
    rfl
  split
  · rename_i millis
    have read := readFraction_padded 3 (nanos / 1000000) (by decide) (by decide) (by omega) rest
    rw [show nanos / 1000000 * 10 ^ (9 - 3) = nanos by omega] at read
    rw [String.toList_append, show ".".toList = ['.'] from rfl, List.append_assoc, List.singleton_append, read]
  split
  · rename_i micros
    have read := readFraction_padded 6 (nanos / 1000) (by decide) (by decide) (by omega) rest
    rw [show nanos / 1000 * 10 ^ (9 - 6) = nanos by omega] at read
    rw [String.toList_append, show ".".toList = ['.'] from rfl, List.append_assoc, List.singleton_append, read]
  · have read := readFraction_padded 9 nanos (by decide) (by decide) (by omega) rest
    rw [show nanos * 10 ^ (9 - 9) = nanos by omega] at read
    rw [String.toList_append, show ".".toList = ['.'] from rfl, List.append_assoc, List.singleton_append, read]

/-! ## The whole -/

namespace Instant

/-- The number of leap seconds that an instant lies in. -/
def IsLeap (t : Instant) (leap : Nat) : Prop :=
  leap = 1 ∧ 1000000000 ≤ t.nanos ∨ leap = 0 ∧ t.nanos < 1000000000

/-- The characters of a timestamp, part by part. -/
theorem toList_text {t : Instant} {leap : Nat} (isLeap : IsLeap t leap) :
    t.text.toList = (yearText t.date.year).toList ++ '-' :: ((padded 2 t.date.month).toList ++
      '-' :: ((padded 2 t.date.day).toList ++ 'T' :: ((padded 2 (t.secondOfDay.toNat / 3600)).toList ++
      ':' :: ((padded 2 (t.secondOfDay.toNat / 60 % 60)).toList ++
      ':' :: ((padded 2 (t.secondOfDay.toNat % 60 + leap)).toList ++
      ((fractionText (t.nanos - leap * 1000000000)).toList ++ ['Z'])))))) := by
  obtain ⟨rfl, long⟩ | ⟨rfl, short⟩ := isLeap
  · simp [text, dateText, minuteText, long]
  · simp [text, dateText, minuteText, Nat.not_le.2 short]

theorem inRange_iff {t : Instant} : t.inRange = true ↔
    (-8334601228800 ≤ t.seconds ∧ t.seconds ≤ 8210266876799) ∧
      (t.nanos < 1000000000 ∨ t.nanos < 2000000000 ∧ t.seconds % 60 = 59) := by
  simp only [inRange, Bool.and_eq_true, Bool.or_eq_true, decide_eq_true_eq]
  rfl

/-- The parts of a timestamp make the instant again. -/
theorem ofParts_text {t : Instant} (range : t.inRange = true) {leap : Nat} (isLeap : IsLeap t leap) :
    ofParts t.date (t.secondOfDay.toNat / 3600) (t.secondOfDay.toNat / 60 % 60) (t.secondOfDay.toNat % 60 + leap)
      (t.nanos - leap * 1000000000) 0 = .ok t := by
  obtain ⟨⟨least, most⟩, fraction⟩ := inRange_iff.1 range
  have years := year_ofDays (n := t.seconds / 86400) (by omega) (by omega)
  have kept : ¬ (!t.date.valid || decide (t.date.year < -262143) || decide (262142 < t.date.year)) = true := by
    have valid : t.date.valid = true := valid_ofDays _
    simp only [valid, Bool.not_true, Bool.false_or, Bool.or_eq_true, decide_eq_true_eq]
    exact fun outside => outside.elim (Int.not_lt.2 years.1) (Int.not_lt.2 years.2)
  have inDay : t.secondOfDay = t.seconds % 86400 := rfl
  have isSixty : t.secondOfDay.toNat % 60 + leap = 60 ↔ leap = 1 := by
    unfold IsLeap at isLeap
    omega
  have wallClock : t.date.days * 86400 + ((t.secondOfDay.toNat / 3600 * 3600 + t.secondOfDay.toNat / 60 % 60 * 60 +
      (if t.secondOfDay.toNat % 60 + leap = 60 then 59 else t.secondOfDay.toNat % 60 + leap) : Nat) : Int) - 0 =
      t.seconds := by
    have days : t.date.days = t.seconds / 86400 := days_ofDays _
    have hours : t.secondOfDay.toNat / 60 / 60 = t.secondOfDay.toNat / 3600 := Nat.div_div_eq_div_mul _ 60 60
    unfold IsLeap at isLeap
    rw [days]
    split <;> omega
  have nanos : t.nanos - leap * 1000000000 + (if t.secondOfDay.toNat % 60 + leap = 60 then 1000000000 else 0) =
      t.nanos := by
    unfold IsLeap at isLeap
    split <;> omega
  have bounds : ¬ (decide (t.seconds < minSeconds) || decide (maxSeconds < t.seconds)) = true := by
    rw [Bool.or_eq_true, decide_eq_true_eq, decide_eq_true_eq]
    exact fun outside => outside.elim (Int.not_lt.2 least) (Int.not_lt.2 most)
  rw [ofParts]
  simp only [wallClock, nanos]
  rw [if_neg kept, if_neg (by decide), if_neg bounds]

/-- Every instant in range is read back from its text. -/
theorem parse_text {t : Instant} (range : t.inRange = true) : parse t.text = .ok t := by
  obtain ⟨leap, isLeap⟩ : ∃ leap, IsLeap t leap := by
    by_cases long : 1000000000 ≤ t.nanos
    · exact ⟨1, .inl ⟨rfl, long⟩⟩
    · exact ⟨0, .inr ⟨rfl, Nat.lt_of_not_le long⟩⟩
  have parts := ofParts_text range isLeap
  obtain ⟨⟨least, most⟩, nanos⟩ := inRange_iff.1 range
  have years := year_ofDays (n := t.seconds / 86400) (by omega) (by omega)
  have days := valid_ofDays (t.seconds / 86400)
  simp only [Date.valid, Bool.and_eq_true, decide_eq_true_eq] at days
  obtain ⟨⟨⟨monthLeast, monthMost⟩, dayLeast⟩, dayMost⟩ := days
  have monthDays := monthLength_le (Date.ofDays (t.seconds / 86400)).year (Date.ofDays (t.seconds / 86400)).month
  have inDay : t.secondOfDay = t.seconds % 86400 := rfl
  have year (rest : List Char) :
      readYear ((yearText t.date.year).toList ++ '-' :: rest) = .ok (t.date.year, '-' :: rest) :=
    readYear_yearText (Int.lt_of_lt_of_le (by decide) years.1) (Int.lt_of_le_of_lt years.2 (by decide)) rfl
  have month (rest : List Char) : readField 1 12 ((padded 2 t.date.month).toList ++ rest) = .ok (t.date.month, rest) :=
    readField_padded _ _ _ monthLeast monthMost (by decide) rest
  have day (rest : List Char) : readField 1 31 ((padded 2 t.date.day).toList ++ rest) = .ok (t.date.day, rest) :=
    readField_padded _ _ _ dayLeast (Nat.le_trans dayMost monthDays) (by decide) rest
  have hour := readField_padded 0 23 (t.secondOfDay.toNat / 3600) (by omega) (by omega)
    (by decide)
  have minute := readField_padded 0 59 (t.secondOfDay.toNat / 60 % 60) (by omega) (by omega)
    (by decide)
  have second := readField_padded 0 60 (t.secondOfDay.toNat % 60 + leap) (by omega)
    (by unfold IsLeap at isLeap; omega) (by decide)
  have fraction := readFraction_fractionText (t.nanos - leap * 1000000000)
    (by unfold IsLeap at isLeap; omega) []
  have offset : readOffset (skipBlank ['Z']) = .ok (0, []) := rfl
  have dash := readMark_cons '-' (by decide)
  have colon := readMark_cons ':' (by decide)
  have done : skipBlank [] = [] := rfl
  simp [parse, toList_text isLeap, year, month, day, hour, minute, second, fraction, offset, dash, colon, done]
  exact parts

end Instant

end Gazetteer.Time

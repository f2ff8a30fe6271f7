import Gazetteer.Proofs.Decimal.Bits
import Gazetteer.Proofs.Json.Scale
import Gazetteer.Proofs.Text.Numeral

/-!
# Numbers written and read back

An integer of 64 bits is read back as itself, and a binary fraction that is finite as some finite binary fraction
(`readNumber_text`): the reader multiplies where the writer looked for the nearest decimal, so the last bit may differ.
What is read never fails to be written so (`writable_readNumber`).
-/

namespace Gazetteer

set_option autoImplicit false

theorem Number.inRange_iff {k : Int} :
    Number.inRange k = true ↔ -9223372036854775808 ≤ k ∧ k < 18446744073709551616 := by
  rw [Number.inRange, Bool.and_eq_true, decide_eq_true_eq, decide_eq_true_eq]

theorem Number.inRange_natCast {n : Nat} (fits : n < UInt64.size) : Number.inRange n = true := by
  have small : n < 18446744073709551616 := fits
  exact inRange_iff.2 (by omega)

/-- A number that has a text to be read back: an integer in range or a finite binary fraction. -/
def Number.Writable : Number → Prop
  | .integer n => Number.inRange n = true
  | .real bits => Decimal.Finite bits

namespace Json

open Decimal

/-! ## Digits -/

/-- What follows is no digit. -/
abbrev Undigited (rest : List Char) : Prop := rest.head?.any Char.isDigit = false

section Digits

variable {ds rest : List Char} {n : Nat}

/-- A value stays below a bound from digit to digit if it does at the end. -/
theorem room_of_fits {c : Char} {bound : Nat} (fits : Nat.ofDigitChars 10 (c :: ds) n < bound) :
    n * 10 + (c.toNat - '0'.toNat) < bound ∧ Nat.ofDigitChars 10 ds (n * 10 + (c.toNat - '0'.toNat)) < bound := by
  rw [Nat.ofDigitChars_cons, Nat.mul_comm] at fits
  exact ⟨Nat.lt_of_le_of_lt (le_ofDigitChars ds _) fits, fits⟩

theorem fractionDigits_append (digits : ∀ c ∈ ds, c.isDigit = true) (ends : Undigited rest)
    (fits : Nat.ofDigitChars 10 ds n < significandLimit) (exponent : Int) (any : Bool) :
    fractionDigits n exponent any (ds ++ rest) =
      (Nat.ofDigitChars 10 ds n, exponent - ds.length, any || !ds.isEmpty, rest) := by
  induction ds generalizing n exponent any with
  | nil =>
    rw [List.nil_append, Nat.ofDigitChars_nil, List.length_nil]
    cases rest with
    | nil => simp [fractionDigits]
    | cons c rest =>
      have other : c.isDigit = false := ends
      simp [fractionDigits, digit?_eq, other]
  | cons c ds ih =>
    obtain ⟨room, fits⟩ := room_of_fits fits
    rw [List.cons_append, fractionDigits, digit?_eq, if_pos (digits c List.mem_cons_self)]
    dsimp only
    rw [if_pos room, ih (fun d member => digits d (List.mem_cons_of_mem c member)) fits, Nat.ofDigitChars_cons,
      Nat.mul_comm 10 n, List.length_cons]
    simp only [Bool.true_or, List.isEmpty_cons, Bool.not_false, Bool.or_true, Prod.mk.injEq, and_true, true_and]
    omega

theorem exponentDigits_append (digits : ∀ c ∈ ds, c.isDigit = true) (ends : Undigited rest)
    (fits : Nat.ofDigitChars 10 ds n < 2147483648) :
    exponentDigits n (ds ++ rest) = (some (Nat.ofDigitChars 10 ds n), rest) := by
  induction ds generalizing n with
  | nil =>
    rw [List.nil_append, Nat.ofDigitChars_nil]
    cases rest with
    | nil => rfl
    | cons c rest =>
      have other : c.isDigit = false := ends
      simp [exponentDigits, digit?_eq, other]
  | cons c ds ih =>
    obtain ⟨room, fits⟩ := room_of_fits fits
    rw [List.cons_append, exponentDigits, digit?_eq, if_pos (digits c List.mem_cons_self)]
    dsimp only
    rw [if_pos room, ih (fun d member => digits d (List.mem_cons_of_mem c member)) fits, Nat.ofDigitChars_cons,
      Nat.mul_comm 10 n]

theorem integerDigits_append (positive : Bool) (digits : ∀ c ∈ ds, c.isDigit = true) (ends : Undigited rest)
    (fits : Nat.ofDigitChars 10 ds n < significandLimit) :
    integerDigits positive n (ds ++ rest) = finishInteger positive (Nat.ofDigitChars 10 ds n) rest := by
  induction ds generalizing n with
  | nil =>
    rw [List.nil_append, Nat.ofDigitChars_nil]
    cases rest with
    | nil => rfl
    | cons c rest =>
      have other : c.isDigit = false := ends
      simp [integerDigits, digit?_eq, other]
  | cons c ds ih =>
    obtain ⟨room, fits⟩ := room_of_fits fits
    rw [List.cons_append, integerDigits, digit?_eq, if_pos (digits c List.mem_cons_self)]
    dsimp only
    rw [if_pos room, ih (fun d member => digits d (List.mem_cons_of_mem c member)) fits, Nat.ofDigitChars_cons,
      Nat.mul_comm 10 n]

theorem ofDigitChars_cons_zero (c : Char) (ds : List Char) :
    Nat.ofDigitChars 10 (c :: ds) 0 = Nat.ofDigitChars 10 ds (c.toNat - '0'.toNat) := by
  rw [Nat.ofDigitChars_cons, Nat.mul_zero, Nat.zero_add]

/-- Digits in front, the first not a zero. -/
theorem readNumber_append (positive : Bool) (c : Char) (ds rest : List Char)
    (digits : ∀ d ∈ c :: ds, d.isDigit = true) (lead : c ≠ '0')
    (ends : Undigited rest) (fits : Nat.ofDigitChars 10 (c :: ds) 0 < significandLimit) :
    readNumber positive (c :: ds ++ rest) = finishInteger positive (Nat.ofDigitChars 10 (c :: ds) 0) rest := by
  have digit : c.isDigit = true := digits c List.mem_cons_self
  rw [ofDigitChars_cons_zero] at fits ⊢
  have step : readNumber positive (c :: (ds ++ rest)) = integerDigits positive (c.toNat - '0'.toNat) (ds ++ rest) := by
    unfold readNumber
    split
    · contradiction
    · rename_i same
      exact absurd (List.cons.inj same).1 lead
    · rename_i same
      obtain ⟨rfl, rfl⟩ := List.cons.inj same
      rw [digit?_eq, if_pos digit]
  rw [List.cons_append, step]
  exact integerDigits_append positive (fun d member => digits d (List.mem_cons_of_mem c member)) ends fits

theorem readNumber_zero (positive : Bool) (ends : Undigited rest) :
    readNumber positive ('0' :: rest) = finishInteger positive 0 rest := by
  cases rest with
  | nil => rfl
  | cons c rest =>
    have other : c.isDigit = false := ends
    simp [readNumber, digit?_eq, other]

theorem readNumber_toDigits (positive : Bool) (ends : Undigited rest) (fits : n < significandLimit) :
    readNumber positive (Nat.toDigits 10 n ++ rest) = finishInteger positive n rest := by
  obtain zero | some := Nat.eq_zero_or_pos n
  · rw [zero, Nat.toDigits_zero]
    exact readNumber_zero positive ends
  · obtain ⟨c, cs, numeral, lead⟩ := head_toDigits some
    have digits := isDigit_toDigits n
    have value := Nat.ofDigitChars_ten_toDigits (n := n)
    rw [numeral] at digits value ⊢
    rw [readNumber_append positive c cs rest digits lead ends (by rw [value]; exact fits), value]

end Digits

/-! ## Point and exponent -/

/-- What follows does not go on with the number in front of it. -/
def Stops (rest : List Char) : Prop := rest.head?.any (fun c => c.isDigit || c == '.' || c == 'e' || c == 'E') = false

theorem Stops.undigited {rest : List Char} (stops : Stops rest) : Undigited rest := by
  cases rest with
  | nil => rfl
  | cons c rest =>
    simp only [Stops, List.head?_cons, Option.any_some, Bool.or_eq_false_iff] at stops
    exact stops.1.1.1

theorem Stops.atExponent {rest : List Char} (stops : Stops rest) : atExponent rest = false := by
  cases rest with
  | nil => rfl
  | cons c rest =>
    simp only [Stops, List.head?_cons, Option.any_some, Bool.or_eq_false_iff, beq_eq_false_iff_ne] at stops
    simp [Json.atExponent, stops.1.2, stops.2]

section Finish

variable {ds rest : List Char} {n : Nat}

theorem finishInteger_point (positive : Bool) (digits : ∀ c ∈ ds, c.isDigit = true) (some : ds ≠ [])
    (ends : Undigited rest) (fits : Nat.ofDigitChars 10 ds n < significandLimit) :
    finishInteger positive n ('.' :: (ds ++ rest)) =
      if atExponent rest then readExponent positive (Nat.ofDigitChars 10 ds n) (-ds.length) (rest.drop 1)
      else finishReal positive (Nat.ofDigitChars 10 ds n) (-ds.length) rest := by
  have any : (!ds.isEmpty) = true := by simp [some]
  rw [finishInteger, readFraction, fractionDigits_append digits ends fits, Bool.false_or, any, Int.zero_sub]

theorem finishInteger_exponent (positive : Bool) (rest : List Char) :
    finishInteger positive n ('e' :: rest) = readExponent positive n 0 rest := rfl

/-- The digits of an exponent behind its sign. -/
theorem readExponent_append (positive up : Bool) (exponent : Int) (digits : ∀ c ∈ ds, c.isDigit = true)
    (some : ds ≠ []) (ends : Undigited rest) (fits : Nat.ofDigitChars 10 ds 0 < 2147483648) :
    readExponent positive n exponent ((if up then '+' else '-') :: (ds ++ rest)) =
      finishReal positive n (if up then exponent + Nat.ofDigitChars 10 ds 0 else exponent - Nat.ofDigitChars 10 ds 0)
        rest := by
  obtain ⟨c, ds, rfl⟩ := List.exists_cons_of_ne_nil some
  have first : digit? c = .some (c.toNat - '0'.toNat) := by rw [digit?_eq, if_pos (digits c List.mem_cons_self)]
  rw [ofDigitChars_cons_zero] at fits ⊢
  have others := exponentDigits_append (fun d member => digits d (List.mem_cons_of_mem c member)) ends fits
  cases up <;> simp only [readExponent, List.cons_append, Bool.false_eq_true, if_true, if_false, first, others]

/-- An exponent as it is written. -/
theorem readExponent_toString (positive : Bool) {k : Int} (exponent : Int) (low : -1000 < k) (high : k < 1000)
    (ends : Undigited rest) :
    readExponent positive n exponent ((if k < 0 then [] else ['+']) ++ ((toString k).toList ++ rest)) =
      finishReal positive n (exponent + k) rest := by
  by_cases negative : k < 0
  · have read := readExponent_append (n := n) positive false exponent (isDigit_toDigits (-k).toNat)
      Nat.toDigits_ne_nil ends (by rw [Nat.ofDigitChars_ten_toDigits]; omega)
    rw [Nat.ofDigitChars_ten_toDigits] at read
    rw [if_pos negative, toList_toString_of_neg negative]
    simp only [Bool.false_eq_true, if_false] at read
    have place : exponent - ((-k).toNat : Int) = exponent + k := by omega
    rw [place] at read
    exact read
  · have read := readExponent_append (n := n) positive true exponent (isDigit_toDigits k.toNat) Nat.toDigits_ne_nil ends
      (by rw [Nat.ofDigitChars_ten_toDigits]; omega)
    rw [Nat.ofDigitChars_ten_toDigits] at read
    rw [if_neg negative, toList_toString_of_nonneg (by omega)]
    simp only [if_true] at read
    have place : exponent + (k.toNat : Int) = exponent + k := by omega
    rw [place] at read
    exact read

end Finish

/-! ## Decimals -/

section Render

variable {s : Scientific} {rest : List Char}

theorem length_toDigits_le {n k : Nat} (positive : 0 < k) (small : n < 10 ^ k) : (Nat.toDigits 10 n).length ≤ k :=
  (Nat.length_toDigits_le_iff (by decide) positive).2 small

theorem lt_length_toDigits (n : Nat) : n < 10 ^ (Nat.toDigits 10 n).length :=
  (Nat.length_toDigits_le_iff (by decide) Nat.length_toDigits_pos).1 (Nat.le_refl _)

/-- The four layouts of a decimal: a natural number, a point among the digits, a point before them, an exponent. -/
theorem toList_render (l : Layout) {ds : List Char} {point : Int} (numeral : Nat.toDigits 10 s.digits = ds)
    (place : ds.length + s.exponent = point) :
    (0 ≤ s.exponent ∧ point ≤ l.pointBehind ∧
      (l.render s).toList = ds ++ List.replicate s.exponent.toNat '0' ++ ['.', '0']) ∨
    (s.exponent < 0 ∧ 0 < point ∧ (l.render s).toList = ds.take point.toNat ++ '.' :: ds.drop point.toNat) ∨
    (point ≤ 0 ∧ (l.render s).toList = '0' :: '.' :: (List.replicate (-point).toNat '0' ++ ds)) ∨
    (l.render s).toList = ds.take 1 ++ (if (ds.drop 1).isEmpty then [] else '.' :: ds.drop 1) ++
      ('e' :: ((if point - 1 < 0 then [] else l.plusMark.toList) ++ (toString (point - 1)).toList)) := by
  have text : (Nat.repr s.digits).toList = ds := by rw [Nat.toList_repr, numeral]
  have count : ((Nat.repr s.digits).length : Int) + s.exponent = point := by rw [← String.length_toList, text, place]
  unfold Decimal.Layout.render
  dsimp only
  rw [count, text]
  split
  · rename_i whole
    rw [Bool.and_eq_true, decide_eq_true_eq, decide_eq_true_eq] at whole
    left
    refine ⟨whole.1, whole.2, ?_⟩
    rw [String.toList_append, String.toList_append, String.toList_ofList, text]
    rfl
  · rename_i whole
    rw [Bool.and_eq_true, decide_eq_true_eq, decide_eq_true_eq] at whole
    right
    split
    · rename_i among
      rw [Bool.and_eq_true, decide_eq_true_eq, decide_eq_true_eq] at among
      left
      refine ⟨by omega, among.1, ?_⟩
      simp only [String.toList_append, String.toList_ofList, List.append_assoc]
      rfl
    · right
      split
      · rename_i before
        rw [Bool.and_eq_true, decide_eq_true_eq, decide_eq_true_eq] at before
        left
        refine ⟨before.2, ?_⟩
        simp only [String.toList_append, String.toList_ofList, text]
        rfl
      · right
        have blank : (String.ofList (ds.drop 1)).isEmpty = (ds.drop 1).isEmpty := by
          cases ds.drop 1 <;> simp
        rw [blank, String.toList_append, String.toList_append]
        cases (ds.drop 1).isEmpty <;> by_cases negative : point - 1 < 0 <;> simp [negative]

variable {ds : List Char} {point : Int}

/-- A natural number with a digit behind the point. -/
theorem readNumber_whole (positive : Bool) (numeral : Nat.toDigits 10 s.digits = ds) (some : 0 < s.digits)
    (place : ds.length + s.exponent = point) (whole : 0 ≤ s.exponent) (short : point ≤ 16) (stops : Stops rest) :
    readNumber positive (ds ++ List.replicate s.exponent.toNat '0' ++ ['.', '0'] ++ rest) =
      finishReal positive (s.digits * 10 ^ s.exponent.toNat * 10) (-1) rest ∧
        s.digits * 10 ^ s.exponent.toNat * 10 < significandLimit := by
  have digits : ∀ d ∈ ds ++ List.replicate s.exponent.toNat '0', d.isDigit = true := by
    intro d member
    obtain member | member := List.mem_append.1 member
    · exact isDigit_toDigits s.digits d (by rw [numeral]; exact member)
    · rw [(List.mem_replicate.1 member).2]
      rfl
  have value :
      Nat.ofDigitChars 10 (ds ++ List.replicate s.exponent.toNat '0') 0 = s.digits * 10 ^ s.exponent.toNat := by
    rw [Nat.ofDigitChars_append, Nat.ofDigitChars_replicate_zero, ← numeral, Nat.ofDigitChars_ten_toDigits,
      Nat.mul_comm]
  have small : s.digits * 10 ^ s.exponent.toNat < 10 ^ 16 := by
    have long := lt_length_toDigits s.digits
    rw [numeral] at long
    calc s.digits * 10 ^ s.exponent.toNat < 10 ^ ds.length * 10 ^ s.exponent.toNat :=
          Nat.mul_lt_mul_of_pos_right long (Nat.pow_pos (by decide))
      _ = 10 ^ (ds.length + s.exponent.toNat) := (Nat.pow_add 10 _ _).symm
      _ ≤ 10 ^ 16 := Nat.pow_le_pow_right (by decide) (by omega)
  have fits : s.digits * 10 ^ s.exponent.toNat * 10 < significandLimit := by
    have room : 10 ^ 16 * 10 < significandLimit := by decide
    omega
  refine ⟨?_, fits⟩
  obtain ⟨c, cs, lead, other⟩ := head_toDigits some
  rw [numeral] at lead
  have zero : Nat.ofDigitChars 10 ['0'] (s.digits * 10 ^ s.exponent.toNat) = s.digits * 10 ^ s.exponent.toNat * 10 := by
    rw [Nat.ofDigitChars_cons, Nat.ofDigitChars_nil, Nat.mul_comm]
    rfl
  have front := readNumber_append positive c (cs ++ List.replicate s.exponent.toNat '0') ('.' :: (['0'] ++ rest))
    (by rw [← List.cons_append, ← lead]; exact digits) other rfl
    (by rw [← List.cons_append, ← lead, value]; omega)
  rw [← List.cons_append, ← lead, value] at front
  rw [List.append_assoc]
  refine front.trans ?_
  rw [finishInteger_point positive (List.forall_mem_singleton.2 rfl) (List.cons_ne_nil _ _) stops.undigited
      (by rw [zero]; exact fits), zero, stops.atExponent, if_neg Bool.false_ne_true]
  rfl

/-- A point among the digits. -/
theorem readNumber_among (positive : Bool) (numeral : Nat.toDigits 10 s.digits = ds) (some : 0 < s.digits)
    (fits : s.digits < significandLimit) (place : ds.length + s.exponent = point) (below : s.exponent < 0)
    (inside : 0 < point) (stops : Stops rest) :
    readNumber positive (ds.take point.toNat ++ '.' :: ds.drop point.toNat ++ rest) =
      finishReal positive s.digits s.exponent rest := by
  have digits := isDigit_toDigits s.digits
  have value := Nat.ofDigitChars_ten_toDigits (n := s.digits)
  obtain ⟨c, cs, lead, other⟩ := head_toDigits some
  rw [numeral] at digits value lead
  have joined : Nat.ofDigitChars 10 (ds.drop point.toNat) (Nat.ofDigitChars 10 (ds.take point.toNat) 0) = s.digits := by
    rw [← Nat.ofDigitChars_append, List.take_append_drop, value]
  have least := le_ofDigitChars (ds.drop point.toNat) (Nat.ofDigitChars 10 (ds.take point.toNat) 0)
  obtain ⟨k, count⟩ : ∃ k, point.toNat = k + 1 := ⟨point.toNat - 1, by omega⟩
  have front : ds.take point.toNat = c :: cs.take k := by rw [lead, count, List.take_succ_cons]
  have back : ds.drop point.toNat ≠ [] := by
    intro none
    have := List.drop_eq_nil_iff.1 none
    omega
  have behind : -((ds.drop point.toNat).length : Int) = s.exponent := by
    rw [List.length_drop]
    omega
  have read := readNumber_append positive c (cs.take k) ('.' :: (ds.drop point.toNat ++ rest))
    (by rw [← front]; exact fun d member => digits d (List.mem_of_mem_take member)) other rfl
    (by rw [← front]; omega)
  rw [← front] at read
  rw [List.append_assoc]
  refine read.trans ?_
  rw [finishInteger_point positive (fun d member => digits d (List.mem_of_mem_drop member)) back stops.undigited
    (by rw [joined]; exact fits), joined, stops.atExponent, if_neg Bool.false_ne_true, behind]

/-- A point before the digits. -/
theorem readNumber_before (positive : Bool) (numeral : Nat.toDigits 10 s.digits = ds)
    (fits : s.digits < significandLimit) (place : ds.length + s.exponent = point) (outside : point ≤ 0)
    (stops : Stops rest) :
    readNumber positive ('0' :: '.' :: (List.replicate (-point).toNat '0' ++ ds) ++ rest) =
      finishReal positive s.digits s.exponent rest := by
  have digits : ∀ d ∈ List.replicate (-point).toNat '0' ++ ds, d.isDigit = true := by
    intro d member
    obtain member | member := List.mem_append.1 member
    · rw [(List.mem_replicate.1 member).2]
      rfl
    · exact isDigit_toDigits s.digits d (by rw [numeral]; exact member)
  have value : Nat.ofDigitChars 10 (List.replicate (-point).toNat '0' ++ ds) 0 = s.digits := by
    rw [Nat.ofDigitChars_append, Nat.ofDigitChars_replicate_zero, Nat.mul_zero, ← numeral,
      Nat.ofDigitChars_ten_toDigits]
  have some : List.replicate (-point).toNat '0' ++ ds ≠ [] := by
    rw [← numeral]
    exact List.append_ne_nil_of_right_ne_nil _ Nat.toDigits_ne_nil
  have behind : -((List.replicate (-point).toNat '0' ++ ds).length : Int) = s.exponent := by
    rw [List.length_append, List.length_replicate]
    omega
  have point? : Undigited ('.' :: (List.replicate (-point).toNat '0' ++ ds ++ rest)) := rfl
  rw [List.cons_append, List.cons_append, readNumber_zero positive point?,
    finishInteger_point positive digits some stops.undigited (by rw [value]; exact fits), value, stops.atExponent,
    if_neg Bool.false_ne_true, behind]

/-- An exponent behind the first digit, or behind the others and the point. -/
theorem readNumber_exponent (positive : Bool) (numeral : Nat.toDigits 10 s.digits = ds) (some : 0 < s.digits)
    (fits : s.digits < significandLimit) (place : ds.length + s.exponent = point) (low : -999 < point)
    (high : point < 999) (stops : Stops rest) :
    readNumber positive (ds.take 1 ++ (if (ds.drop 1).isEmpty then [] else '.' :: ds.drop 1) ++
        ('e' :: ((if point - 1 < 0 then [] else ['+']) ++ (toString (point - 1)).toList)) ++ rest) =
      finishReal positive s.digits s.exponent rest := by
  have digits := isDigit_toDigits s.digits
  have value := Nat.ofDigitChars_ten_toDigits (n := s.digits)
  obtain ⟨c, cs, lead, other⟩ := head_toDigits some
  rw [numeral] at digits value lead
  subst lead
  have first : ∀ d ∈ [c], d.isDigit = true := by
    intro d member
    exact digits d (List.mem_cons.2 (Or.inl (List.mem_singleton.1 member)))
  have joined : Nat.ofDigitChars 10 cs (Nat.ofDigitChars 10 [c] 0) = s.digits := by
    rw [← Nat.ofDigitChars_append]
    exact value
  have least := le_ofDigitChars cs (Nat.ofDigitChars 10 [c] 0)
  have last (n : Nat) (exponent : Int) (total : exponent + (point - 1) = s.exponent) :
      readExponent positive n exponent
          ((if point - 1 < 0 then [] else ['+']) ++ ((toString (point - 1)).toList ++ rest)) =
        finishReal positive n s.exponent rest := by
    rw [readExponent_toString positive exponent (by omega) (by omega) stops.undigited, total]
  rw [List.length_cons] at place
  have read (more : List Char) (ends : Undigited more) :=
    readNumber_append positive c [] more first other ends (by omega)
  simp only [List.take_succ_cons, List.take_zero, List.drop_succ_cons, List.drop_zero, List.append_assoc,
    List.cons_append, List.nil_append]
  cases cs with
  | nil =>
    refine (read _ rfl).trans ?_
    rw [finishInteger_exponent, last _ 0 (by rw [List.length_nil] at place; omega)]
    rw [Nat.ofDigitChars_nil] at joined
    rw [joined]
  | cons d cs =>
    refine (read ('.' :: (d :: cs ++ _)) rfl).trans ?_
    rw [finishInteger_point positive (fun d member => digits d (List.mem_cons_of_mem c member))
        (List.cons_ne_nil d cs) rfl (by rw [joined]; exact fits), joined]
    refine (if_pos rfl).trans ?_
    rw [List.drop_one, List.tail_cons, last _ _ (by omega)]

/-- The text of a decimal is read as the decimal itself, or as a natural number with one digit behind the point. -/
theorem readNumber_render (some : 0 < s.digits) (few : s.digits ≤ 10 ^ 17) (low : -900 < s.exponent)
    (high : s.exponent < 900) :
    ∃ n e, n < significandLimit ∧ (e < 0 ∨ n = s.digits ∧ e = s.exponent) ∧ ∀ positive rest, Stops rest →
      readNumber positive ((Number.layout.render s).toList ++ rest) = finishReal positive n e rest := by
  have fits : s.digits < significandLimit := Nat.lt_of_le_of_lt few (by decide)
  have short : (Nat.toDigits 10 s.digits).length ≤ 18 := length_toDigits_le (by decide) (by omega)
  obtain ⟨whole, front, text⟩ | ⟨below, inside, text⟩ | ⟨outside, text⟩ | text :=
    toList_render (s := s) Number.layout rfl rfl
  · have ends : Stops [] := rfl
    refine ⟨_, -1, (readNumber_whole true rfl some rfl whole front ends).2, Or.inl (by decide), ?_⟩
    intro positive rest stops
    rw [text]
    exact (readNumber_whole positive rfl some rfl whole front stops).1
  · refine ⟨_, _, fits, Or.inr ⟨rfl, rfl⟩, ?_⟩
    intro positive rest stops
    rw [text]
    exact readNumber_among positive rfl some fits rfl below inside stops
  · refine ⟨_, _, fits, Or.inr ⟨rfl, rfl⟩, ?_⟩
    intro positive rest stops
    rw [text]
    exact readNumber_before positive rfl fits rfl outside stops
  · refine ⟨_, _, fits, Or.inr ⟨rfl, rfl⟩, ?_⟩
    intro positive rest stops
    rw [text]
    exact readNumber_exponent positive rfl some fits rfl (by omega) (by omega) stops

end Render

/-! ## Range -/

/-- The three greatest numbers, where rounding three times could leave the range. -/
theorem isSome_scale_top : ∀ k : Fin 3,
    (scale? (shortest ⟨2 ^ 53 - 1 - k, 971, false⟩).digits (shortest ⟨2 ^ 53 - 1 - k, 971, false⟩).exponent).isSome =
      true := by
  decide +kernel

/-- The shortest decimal of a finite number does not leave the range when it is read. -/
theorem isSome_scale_shortest {b : Binary} (fits : b.Fits) (positive : 0 < (shortest b).digits) :
    ∃ f, scale? (shortest b).digits (shortest b).exponent = some f := by
  obtain down | whole := Int.lt_or_le (shortest b).exponent 0
  · exact isSome_scaleFrom down
  by_cases top : 2 ^ 53 - 3 ≤ b.mantissa ∧ b.exponent = 971
  · have mantissa := fits.mantissa
    have open' : b.closeBelow = false := by
      cases close : b.closeBelow with
      | false => rfl
      | true =>
        have power := fits.close close
        omega
    obtain ⟨k, which⟩ : ∃ k : Fin 3, b = ⟨2 ^ 53 - 1 - k, 971, false⟩ := by
      refine ⟨⟨2 ^ 53 - 1 - b.mantissa, by omega⟩, ?_⟩
      obtain ⟨m, exponent, closeBelow⟩ := b
      dsimp only at top mantissa open' ⊢
      rw [open', top.2]
      congr 1
      omega
    subst which
    exact Option.isSome_iff_exists.1 (isSome_scale_top k)
  · have small : (shortest b).digits ≤ 10 ^ 17 := digits_shortest_le b
    have bound := shortest_le b whole
    have high := fits.high
    have mantissa := fits.mantissa
    obtain ⟨k, exponent⟩ := Int.eq_ofNat_of_zero_le whole
    rw [exponent] at bound ⊢
    rw [Int.toNat_natCast] at bound
    apply isSome_scale positive (Nat.lt_of_le_of_lt small (by decide))
    have less : 2 * ((shortest b).digits * 10 ^ k) ≤ 2 * ((4 * b.mantissa + 2) * b.up) :=
      Nat.mul_le_mul_left 2 (Nat.le_trans (Nat.le_mul_of_pos_right _ b.down_pos) bound)
    refine Nat.le_trans less ?_
    by_cases last : b.exponent = 971
    · calc 2 * ((4 * b.mantissa + 2) * b.up) ≤ 2 * ((4 * (2 ^ 53 - 4) + 2) * 2 ^ 969) :=
            Nat.mul_le_mul_left 2 (Nat.mul_le_mul (by omega) (b.up_le high))
        _ ≤ (2 ^ 54 - 7) * 2 ^ 971 := by decide +kernel
    · calc 2 * ((4 * b.mantissa + 2) * b.up) ≤ 2 * ((4 * (2 ^ 53 - 1) + 2) * 2 ^ 968) :=
            Nat.mul_le_mul_left 2 (Nat.mul_le_mul (by omega) (b.up_le (by omega)))
        _ ≤ (2 ^ 54 - 7) * 2 ^ 971 := by decide +kernel

/-! ## Reading a text back -/

section Text

variable {rest : List Char}

theorem finishReal_of_scale {positive : Bool} {n : Nat} {e : Int} {f : Float} (scaled : scale? n e = some f) :
    finishReal positive n e rest = .ok (signed positive f, rest) := by
  rw [finishReal, scaled]

theorem readNumber_zeroPoint (positive : Bool) : ∃ n, ∀ rest, Stops rest →
    readNumber positive (['0', '.', '0'] ++ rest) = .ok (n, rest) := by
  obtain ⟨f, scaled⟩ : ∃ f, scale? 0 (-1) = some f := isSome_scaleFrom (by decide)
  refine ⟨signed positive f, ?_⟩
  intro rest stops
  show readNumber positive ('0' :: ('.' :: (['0'] ++ rest))) = _
  rw [readNumber_zero positive rfl,
    finishInteger_point positive (List.forall_mem_singleton.2 rfl) (List.cons_ne_nil _ _) stops.undigited (by decide),
    stops.atExponent, if_neg Bool.false_ne_true]
  exact finishReal_of_scale scaled

/-- The text of a finite number, its sign apart. -/
theorem readNumber_shortest {b : Binary} (fits : b.Fits) (positive : Bool) :
    ∃ n, ∀ rest, Stops rest →
      readNumber positive ((Number.layout.render (shortest b)).toList ++ rest) = .ok (n, rest) := by
  by_cases none : shortest b = ⟨0, 0⟩
  · have text : (Number.layout.render ⟨0, 0⟩).toList = ['0', '.', '0'] := by decide
    rw [none, text]
    exact readNumber_zeroPoint positive
  · have some := digits_shortest_pos none
    have place := exponent_shortest fits
    obtain ⟨n, e, small, which, read⟩ := readNumber_render some (digits_shortest_le b) (by omega) (by omega)
    obtain ⟨f, scaled⟩ : ∃ f, scale? n e = Option.some f := by
      obtain down | ⟨rfl, rfl⟩ := which
      · exact isSome_scaleFrom down
      · exact isSome_scale_shortest fits some
    refine ⟨signed positive f, ?_⟩
    intro rest stops
    rw [read positive rest stops]
    exact finishReal_of_scale scaled

theorem finishInteger_stops (positive : Bool) (n : Nat) (stops : Stops rest) :
    finishInteger positive n rest =
      if positive then .ok (.integer n, rest)
      else if n = 0 || 9223372036854775808 < n then .ok (.real (-(UInt64.ofNat n).toFloat).toBits, rest)
      else .ok (.integer (-(n : Int)), rest) := by
  unfold finishInteger
  split
  · cases stops
  · rw [stops.atExponent, if_neg Bool.false_ne_true]

/-- A number's text is read back as a number, the same wherever the text stands. -/
def ReadsAs (n m : Number) : Prop :=
  (∀ rest, Stops rest → readNumber true (n.text.toList ++ rest) = .ok (m, rest)) ∨
    ∃ cs, n.text.toList = '-' :: cs ∧ ∀ rest, Stops rest → readNumber false (cs ++ rest) = .ok (m, rest)

theorem readsAs_integer {k : Int} (range : Number.inRange k = true) : ReadsAs (.integer k) (.integer k) := by
  obtain ⟨least, most⟩ := Number.inRange_iff.1 range
  obtain negative | nonnegative := Int.lt_or_le k 0
  · refine .inr ⟨_, toList_toString_of_neg negative, fun rest stops => ?_⟩
    have fits : (-k).toNat < significandLimit := by
      show (-k).toNat < 18446744073709551616
      omega
    have inside : (decide ((-k).toNat = 0) || decide (9223372036854775808 < (-k).toNat)) = false := by
      rw [Bool.or_eq_false_iff, decide_eq_false_iff_not, decide_eq_false_iff_not]
      omega
    have back : -((-k).toNat : Int) = k := by omega
    rw [readNumber_toDigits false stops.undigited fits, finishInteger_stops false _ stops, if_neg Bool.false_ne_true,
      inside, if_neg Bool.false_ne_true, back]
  · refine .inl fun rest stops => ?_
    have fits : k.toNat < significandLimit := by
      show k.toNat < 18446744073709551616
      omega
    have back : (k.toNat : Int) = k := by omega
    have text : (Number.integer k).text.toList = Nat.toDigits 10 k.toNat := toList_toString_of_nonneg nonnegative
    rw [text, readNumber_toDigits true stops.undigited fits, finishInteger_stops true _ stops, if_pos rfl, back]

theorem exists_readsAs_real {bits : UInt64} (finite : Decimal.Finite bits) : ∃ m, ReadsAs (.real bits) m := by
  have core (positive : Bool) : ∃ m, ∀ rest, Stops rest → readNumber positive
      ((if bits &&& 0x7FFFFFFFFFFFFFFF = 0 then ['0', '.', '0']
        else (Number.layout.render (shortest (Binary.ofBits (bits &&& 0x7FFFFFFFFFFFFFFF)))).toList) ++ rest) =
        .ok (m, rest) := by
    split
    · exact readNumber_zeroPoint positive
    · exact readNumber_shortest (Finite.size finite).fits positive
  have text : (Number.real bits).text.toList = (if bits >>> 63 = 1 then ['-'] else []) ++
      (if bits &&& 0x7FFFFFFFFFFFFFFF = 0 then ['0', '.', '0']
        else (Number.layout.render (shortest (Binary.ofBits (bits &&& 0x7FFFFFFFFFFFFFFF)))).toList) := by
    show (Number.layout.renderBits bits).toList = _
    unfold Layout.renderBits
    dsimp only
    split <;> split <;> rw [String.toList_append] <;> rfl
  by_cases signed : bits >>> 63 = 1
  · obtain ⟨m, read⟩ := core false
    rw [if_pos signed] at text
    exact ⟨m, .inr ⟨_, text, read⟩⟩
  · obtain ⟨m, read⟩ := core true
    rw [if_neg signed, List.nil_append] at text
    exact ⟨m, .inl (by rw [text]; exact read)⟩

/-- A number that can be written is read back as some number, an integer as itself. -/
theorem readNumber_text {n : Number} (writable : n.Writable) : ∃ m, (∀ k, n = .integer k → m = n) ∧ ReadsAs n m := by
  cases n with
  | integer k => exact ⟨.integer k, fun _ _ => rfl, readsAs_integer writable⟩
  | real bits =>
    obtain ⟨m, read⟩ := exists_readsAs_real writable
    exact ⟨m, nofun, read⟩

end Text

/-! ## What is read -/

section Read

variable {positive : Bool} {significand : Nat} {exponent : Int} {cs rest : List Char} {n : Number}

theorem writable_signed {f : Float} (finite : f.isFinite = true) : (signed positive f).Writable := by
  cases positive with
  | true => exact finite_toBits finite
  | false => exact finite_toBits (isFinite_neg finite)

theorem writable_finishReal (fits : significand < significandLimit)
    (read : finishReal positive significand exponent cs = .ok (n, rest)) : n.Writable := by
  unfold finishReal at read
  split at read
  · rename_i f scaled
    cases read
    exact writable_signed (isFinite_scale fits scaled)
  · cases read

theorem writable_readExponent (fits : significand < significandLimit)
    (read : readExponent positive significand exponent cs = .ok (n, rest)) : n.Writable := by
  have zero : (0.0 : Float).isFinite = true := by decide +kernel
  unfold readExponent at read
  dsimp only at read
  split at read
  · cases read
  · split at read
    · cases read
    · split at read
      · exact writable_finishReal fits read
      · -- one case for each sign the exponent can have
        split at read <;> split at read
        all_goals cases read
        all_goals exact writable_signed zero

theorem fractionDigits_lt (exponent : Int) (any : Bool) (cs : List Char) (fits : significand < significandLimit) :
    (fractionDigits significand exponent any cs).1 < significandLimit := by
  induction cs generalizing significand exponent any with
  | nil => exact fits
  | cons c cs ih =>
    rw [fractionDigits]
    split
    · exact fits
    · split
      · rename_i room
        exact ih _ true room
      · exact fits

theorem writable_readFraction (fits : significand < significandLimit)
    (read : readFraction positive significand exponent cs = .ok (n, rest)) : n.Writable := by
  have small := fractionDigits_lt exponent false cs fits
  unfold readFraction at read
  generalize fractionDigits significand exponent false cs = digits at small read
  split at read
  · cases read
  · cases read
  · split at read
    · exact writable_readExponent small read
    · exact writable_finishReal small read

theorem writable_finishLong (fits : significand < significandLimit)
    (read : finishLong positive significand exponent cs = .ok (n, rest)) : n.Writable := by
  unfold finishLong at read
  split at read
  · exact writable_readFraction fits read
  · split at read
    · exact writable_readExponent fits read
    · exact writable_finishReal fits read

theorem writable_finishInteger (fits : significand < significandLimit)
    (read : finishInteger positive significand cs = .ok (n, rest)) : n.Writable := by
  have small : significand < 18446744073709551616 := fits
  unfold finishInteger at read
  split at read
  · exact writable_readFraction fits read
  · split at read
    · exact writable_readExponent fits read
    · split at read
      · cases read
        exact Number.inRange_natCast fits
      · split at read
        · cases read
          exact finite_toBits (isFinite_neg (isFinite_toFloat fits))
        · rename_i inside
          cases read
          rw [Bool.or_eq_true, decide_eq_true_eq, decide_eq_true_eq] at inside
          exact Number.inRange_iff.2 (by omega)

theorem writable_integerDigits (fits : significand < significandLimit)
    (read : integerDigits positive significand cs = .ok (n, rest)) : n.Writable := by
  induction cs generalizing significand with
  | nil => exact writable_finishInteger fits read
  | cons c cs ih =>
    rw [integerDigits] at read
    split at read
    · exact writable_finishInteger fits read
    · split at read
      · rename_i room
        exact ih room read
      · exact writable_finishLong fits read

/-- Every number that is read can be written. -/
theorem writable_readNumber (read : readNumber positive cs = .ok (n, rest)) : n.Writable := by
  unfold readNumber at read
  split at read
  · cases read
  · split at read
    · split at read
      · cases read
      · exact writable_finishInteger (by decide) read
    · exact writable_finishInteger (by decide) read
  · split at read
    · rename_i c _ _ _ d digit
      have small : d < significandLimit := by
        rw [digit?_eq] at digit
        split at digit
        · rename_i isDigit
          have bounds : 48 ≤ c.toNat ∧ c.toNat ≤ 57 := Char.isDigit_iff_toNat.1 isDigit
          have zero : '0'.toNat = 48 := rfl
          cases digit
          show c.toNat - '0'.toNat < 18446744073709551616
          omega
        · cases digit
      exact writable_integerDigits small read
    · cases read

end Read

end Json

end Gazetteer

import Gazetteer.Text.Utf8
import Mathlib.Algebra.Order.Group.Nat

/-!
# Decoding what was encoded

Decoding takes an encoded character off the front of any bytes (`decodeOne_encodeChar`), one case for each number of
bytes, so it gives back every text from its UTF-8 form (`decode_encode`).
-/

namespace Gazetteer.Text.Utf8

set_option autoImplicit false

/-! ## The bytes of a text -/

theorem toList_loop (bytes : ByteArray) (i : Nat) (done : List UInt8) :
    ByteArray.toList.loop bytes i done = done.reverse ++ bytes.data.toList.drop i := by
  rw [ByteArray.toList.loop]
  split
  · rename_i inside
    have here : i < bytes.data.toList.length := inside
    have byte : bytes.get! i = bytes.data.toList[i] := by
      have inside : i < bytes.data.size := inside
      show bytes.data[i]! = _
      rw [getElem!_pos bytes.data i inside]
      rfl
    rw [toList_loop bytes (i + 1), byte, List.drop_eq_getElem_cons here, List.reverse_cons, List.append_assoc,
      List.singleton_append]
  · rename_i outside
    have past : bytes.data.toList.length ≤ i := Nat.le_of_not_lt outside
    rw [List.drop_eq_nil_of_le past, List.append_nil]
  termination_by bytes.size - i

theorem encode_eq_flatMap (s : String) : encode s = s.toList.flatMap String.utf8EncodeChar := by
  have data : s.toUTF8.data.toList = s.toList.flatMap String.utf8EncodeChar := by
    show s.toByteArray.data.toList = _
    rw [← String.utf8Encode_toList, List.utf8Encode, List.toList_data_toByteArray]
  rw [encode, ByteArray.toList, toList_loop, data]
  rfl

theorem encode_append (s t : String) : encode (s ++ t) = encode s ++ encode t := by
  rw [encode_eq_flatMap, String.toList_append, List.flatMap_append, encode_eq_flatMap, encode_eq_flatMap]

/-! ## One character -/

section Bytes

variable {n : Nat}

theorem leadOf_two (least : 0xC2 ≤ n) (most : n ≤ 0xDF) : leadOf (.ofNat n) = some (2, 0x80, 0xBF) := by
  have value : (UInt8.ofNat n).toNat = n := UInt8.toNat_ofNat_of_lt' (by show n < 256; omega)
  simp [leadOf, UInt8.le_iff_toNat_le, value, least, most]

theorem leadOf_three (least : 0xE0 ≤ n) (most : n ≤ 0xEF) :
    leadOf (.ofNat n) = some (3, if n = 0xE0 then 0xA0 else 0x80, if n = 0xED then 0x9F else 0xBF) := by
  have value : (UInt8.ofNat n).toNat = n := UInt8.toNat_ofNat_of_lt' (by show n < 256; omega)
  simp only [leadOf, UInt8.le_iff_toNat_le, beq_iff_eq, ← UInt8.toNat_inj, value]
  grind

theorem leadOf_four (least : 0xF0 ≤ n) (most : n ≤ 0xF4) :
    leadOf (.ofNat n) = some (4, if n = 0xF0 then 0x90 else 0x80, if n = 0xF4 then 0x8F else 0xBF) := by
  have value : (UInt8.ofNat n).toNat = n := UInt8.toNat_ofNat_of_lt' (by show n < 256; omega)
  simp only [leadOf, UInt8.le_iff_toNat_le, beq_iff_eq, ← UInt8.toNat_inj, value]
  grind

/-- A mask of the low `k` bits takes a remainder. -/
theorem toNat_ofNat_and (k : Nat) (small : n < 256) (bits : k ≤ 8) :
    (UInt8.ofNat n &&& UInt8.ofNat (2 ^ k - 1)).toNat = n % 2 ^ k := by
  have room : 2 ^ k ≤ 256 := Nat.pow_le_pow_right (n := 2) (by omega) bits
  have positive : 0 < 2 ^ k := Nat.two_pow_pos k
  rw [UInt8.toNat_and, UInt8.toNat_ofNat_of_lt' (by show n < 256; omega),
    UInt8.toNat_ofNat_of_lt' (by show _ < 256; omega), Nat.and_two_pow_sub_one_eq_mod]

theorem isTail_ofNat (small : n < 64) : isTail (.ofNat (n + 0x80)) = true := by
  have value : (UInt8.ofNat (n + 0x80)).toNat = n + 0x80 := UInt8.toNat_ofNat_of_lt' (by show _ < 256; omega)
  simp only [isTail, UInt8.le_iff_toNat_le, value, Bool.and_eq_true, decide_eq_true_eq]
  exact ⟨by show 128 ≤ _; omega, by show _ ≤ 191; omega⟩

theorem low_ofNat (small : n < 64) : low (.ofNat (n + 0x80)) = n := by
  have masked := toNat_ofNat_and (n := n + 0x80) 6 (by omega) (by omega)
  rw [low, show (0x3F : UInt8) = .ofNat (2 ^ 6 - 1) from rfl, masked]
  omega

theorem not_lt_ofNat (small : n < 256) (least : 0x80 ≤ n) : ¬ UInt8.ofNat n < 0x80 := by
  rw [UInt8.lt_iff_toNat_lt, UInt8.toNat_ofNat_of_lt' (by show n < 256; omega)]
  show ¬ n < 128
  omega

/-- A second byte within the bounds that its first byte sets. -/
theorem second_ofNat (lo hi : UInt8) (small : n < 256) (least : lo.toNat ≤ n) (most : n ≤ hi.toNat) :
    (decide (lo ≤ .ofNat n) && decide (UInt8.ofNat n ≤ hi)) = true := by
  rw [Bool.and_eq_true, decide_eq_true_eq, decide_eq_true_eq, UInt8.le_iff_toNat_le, UInt8.le_iff_toNat_le,
    UInt8.toNat_ofNat_of_lt' (by show n < 256; omega)]
  exact ⟨least, most⟩

end Bytes

section Sequences

variable {a b c d : Nat} (rest : List UInt8)

theorem decodeOne_two (least : 2 ≤ a) (head : a < 32) (tail : b < 64) :
    decodeOne (.ofNat (a + 0xC0)) (.ofNat (b + 0x80) :: rest) = .ok (Char.ofNat (a * 64 + b), rest) := by
  have second := second_ofNat (n := b + 0x80) 0x80 0xBF (by omega)
    (by show 0x80 ≤ _; omega) (by show _ ≤ 0xBF; omega)
  have mask : (UInt8.ofNat (a + 0xC0) &&& 0x1F).toNat = a := by
    have masked := toNat_ofNat_and (n := a + 0xC0) 5 (by omega) (by omega)
    rw [show (0x1F : UInt8) = .ofNat (2 ^ 5 - 1) from rfl, masked]
    omega
  rw [decodeOne, if_neg (not_lt_ofNat (by omega) (by omega)), leadOf_two (by omega) (by omega)]
  simp only [second, Bool.not_true, Bool.false_eq_true, if_false, beq_self_eq_true, if_true, mask, low_ofNat tail]

theorem decodeOne_three (head : a < 16) (second : b < 64) (third : c < 64)
    (least : 0x800 ≤ a * 4096 + b * 64 + c)
    (scalar : a * 4096 + b * 64 + c < 0xD800 ∨ 0xDFFF < a * 4096 + b * 64 + c) :
    decodeOne (.ofNat (a + 0xE0)) (.ofNat (b + 0x80) :: .ofNat (c + 0x80) :: rest) =
      .ok (Char.ofNat (a * 4096 + b * 64 + c), rest) := by
  have mask : (UInt8.ofNat (a + 0xE0) &&& 0x0F).toNat = a := by
    have masked := toNat_ofNat_and (n := a + 0xE0) 4 (by omega) (by omega)
    rw [show (0x0F : UInt8) = .ofNat (2 ^ 4 - 1) from rfl, masked]
    omega
  have lower : (if a + 0xE0 = 0xE0 then 0xA0 else 0x80 : UInt8).toNat ≤ b + 0x80 := by
    split
    · show 0xA0 ≤ _; omega
    · show 0x80 ≤ _; omega
  have upper : b + 0x80 ≤ (if a + 0xE0 = 0xED then 0x9F else 0xBF : UInt8).toNat := by
    split
    · show _ ≤ 0x9F; omega
    · show _ ≤ 0xBF; omega
  have within := second_ofNat _ _ (by omega) lower upper
  rw [decodeOne, if_neg (not_lt_ofNat (by omega) (by omega)), leadOf_three (by omega) (by omega)]
  simp only [within, isTail_ofNat third, mask, low_ofNat second, low_ofNat third, Bool.not_true, Bool.false_eq_true,
    if_false, if_true, beq_self_eq_true, Nat.reduceBEq]

theorem decodeOne_four (head : a < 8) (second : b < 64) (third : c < 64) (fourth : d < 64)
    (least : 0x10000 ≤ a * 262144 + b * 4096 + c * 64 + d)
    (most : a * 262144 + b * 4096 + c * 64 + d < 0x110000) :
    decodeOne (.ofNat (a + 0xF0)) (.ofNat (b + 0x80) :: .ofNat (c + 0x80) :: .ofNat (d + 0x80) :: rest) =
      .ok (Char.ofNat (a * 262144 + b * 4096 + c * 64 + d), rest) := by
  have mask : (UInt8.ofNat (a + 0xF0) &&& 0x07).toNat = a := by
    have masked := toNat_ofNat_and (n := a + 0xF0) 3 (by omega) (by omega)
    rw [show (0x07 : UInt8) = .ofNat (2 ^ 3 - 1) from rfl, masked]
    omega
  have lower : (if a + 0xF0 = 0xF0 then 0x90 else 0x80 : UInt8).toNat ≤ b + 0x80 := by
    split
    · show 0x90 ≤ _; omega
    · show 0x80 ≤ _; omega
  have upper : b + 0x80 ≤ (if a + 0xF0 = 0xF4 then 0x8F else 0xBF : UInt8).toNat := by
    split
    · show _ ≤ 0x8F; omega
    · show _ ≤ 0xBF; omega
  have within := second_ofNat _ _ (by omega) lower upper
  rw [decodeOne, if_neg (not_lt_ofNat (by omega) (by omega)), leadOf_four (by omega) (by omega)]
  simp only [within, isTail_ofNat third, isTail_ofNat fourth, mask, low_ofNat second, low_ofNat third,
    low_ofNat fourth, Bool.not_true, Bool.false_eq_true, if_false, Nat.reduceBEq]

end Sequences

/-- An encoded character is taken off the front of any bytes. -/
theorem decodeOne_encodeChar (c : Char) (rest : List UInt8) :
    ∃ b tail, String.utf8EncodeChar c ++ rest = b :: tail ∧ decodeOne b tail = .ok (c, rest) := by
  have scalar : c.toNat < 0xD800 ∨ 0xDFFF < c.toNat ∧ c.toNat < 0x110000 := c.valid
  have again (n : Nat) (same : n = c.toNat) : Char.ofNat n = c := by rw [same, Char.ofNat_toNat]
  have encoded : String.utf8EncodeChar c = _ := String.utf8EncodeChar.eq_1 c
  simp only [show c.val.toNat = c.toNat from rfl] at encoded
  rw [encoded]
  split
  · rename_i one
    refine ⟨_, _, rfl, ?_⟩
    have value : (UInt8.ofNat c.toNat).toNat = c.toNat := UInt8.toNat_ofNat_of_lt' (by show _ < 256; omega)
    have ascii : UInt8.ofNat c.toNat < 0x80 := by
      rw [UInt8.lt_iff_toNat_lt, value]
      show _ < 128
      omega
    rw [decodeOne, if_pos ascii, value, again _ rfl]
    rfl
  split
  · rename_i two
    refine ⟨_, _, rfl, ?_⟩
    have decoded := decodeOne_two rest (a := c.toNat / 64 % 0x20) (b := c.toNat % 0x40) (by omega) (by omega) (by omega)
    rwa [again _ (by omega)] at decoded
  split
  · rename_i three
    refine ⟨_, _, rfl, ?_⟩
    have decoded := decodeOne_three rest (a := c.toNat / 4096 % 0x10) (b := c.toNat / 64 % 0x40) (c := c.toNat % 0x40)
      (by omega) (by omega) (by omega) (by omega) (by omega)
    rwa [again _ (by omega)] at decoded
  · refine ⟨_, _, rfl, ?_⟩
    have decoded := decodeOne_four rest (a := c.toNat / 262144 % 0x08) (b := c.toNat / 4096 % 0x40)
      (c := c.toNat / 64 % 0x40) (d := c.toNat % 0x40) (by omega) (by omega) (by omega) (by omega) (by omega) (by omega)
    rwa [again _ (by omega)] at decoded

/-! ## A whole text -/

theorem decodeFrom_encoded (cs : List Char) (index : Nat) (done : List Char) :
    decodeFrom index (cs.flatMap String.utf8EncodeChar) done = .ok (done.reverse ++ cs) := by
  induction cs generalizing index done with
  | nil => simp [decodeFrom]
  | cons c cs ih =>
    obtain ⟨b, tail, bytes, decoded⟩ := decodeOne_encodeChar c (cs.flatMap String.utf8EncodeChar)
    rw [List.flatMap_cons, bytes, decodeFrom]
    split
    · rename_i failed
      rw [decoded] at failed
      cases failed
    · rename_i found
      rw [decoded] at found
      cases found
      rw [ih, List.reverse_cons, List.append_assoc, List.singleton_append]

/-- Every text is read back from its UTF-8 form. -/
theorem decode_encode (s : String) : decode (encode s) = .ok s := by
  rw [decode, encode_eq_flatMap, decodeFrom_encoded]
  show Except.ok (String.ofList ([].reverse ++ s.toList)) = _
  rw [List.reverse_nil, List.nil_append, String.ofList_toList]

end Gazetteer.Text.Utf8

/-!
# Decoding UTF-8

`decode` reads bytes as UTF-8 and tells where the first malformed sequence starts and how long its
well-formed beginning is.  The accepted sequences are exactly those of the Unicode standard: no
overlong forms, no surrogates, nothing above U+10FFFF; a truncated sequence at the end of the bytes
has no length.
-/

namespace Gazetteer.Text.Utf8

set_option autoImplicit false

/-- Where decoding stopped: `length` bytes from `index` on cannot start a character, or the bytes end
inside one. -/
structure Malformed where
  index : Nat
  length : Option Nat
  deriving Repr, DecidableEq

namespace Malformed

/-- How the error reads in a report. -/
def message (e : Malformed) : String :=
  match e.length with
  | some n => s!"invalid utf-8 sequence of {n} bytes from index {e.index}"
  | none => s!"incomplete utf-8 byte sequence from index {e.index}"

end Malformed

/-- The interval of second bytes that may follow a first byte, and the number of bytes in all. -/
def leadOf (b : UInt8) : Option (Nat × UInt8 × UInt8) :=
  if 0xC2 ≤ b && b ≤ 0xDF then some (2, 0x80, 0xBF)
  else if b == 0xE0 then some (3, 0xA0, 0xBF)
  else if b == 0xED then some (3, 0x80, 0x9F)
  else if 0xE1 ≤ b && b ≤ 0xEF then some (3, 0x80, 0xBF)
  else if b == 0xF0 then some (4, 0x90, 0xBF)
  else if 0xF1 ≤ b && b ≤ 0xF3 then some (4, 0x80, 0xBF)
  else if b == 0xF4 then some (4, 0x80, 0x8F)
  else none

/-- A continuation byte. -/
def isTail (b : UInt8) : Bool := 0x80 ≤ b && b ≤ 0xBF

/-- The low six bits of a continuation byte. -/
def low (b : UInt8) : Nat := (b &&& 0x3F).toNat

/-- One character from the front: the character and the bytes after it, or how far a malformed one
was well formed (`none` where the bytes end inside it). -/
def decodeOne (b : UInt8) (rest : List UInt8) : Except (Option Nat) (Char × List UInt8) :=
  if b < 0x80 then .ok (Char.ofNat b.toNat, rest)
  else
    match leadOf b with
    | none => .error (some 1)
    | some (size, lo, hi) =>
        match rest with
        | [] => .error none
        | b1 :: rest1 =>
            if !(lo ≤ b1 && b1 ≤ hi) then .error (some 1)
            else if size == 2 then
              .ok (Char.ofNat ((b &&& 0x1F).toNat * 64 + low b1), rest1)
            else
              match rest1 with
              | [] => .error none
              | b2 :: rest2 =>
                  if !isTail b2 then .error (some 2)
                  else if size == 3 then
                    .ok (Char.ofNat ((b &&& 0x0F).toNat * 4096 + low b1 * 64 + low b2), rest2)
                  else
                    match rest2 with
                    | [] => .error none
                    | b3 :: rest3 =>
                        if !isTail b3 then .error (some 3)
                        else
                          .ok (Char.ofNat ((b &&& 0x07).toNat * 262144 + low b1 * 4096 +
                            low b2 * 64 + low b3), rest3)

theorem length_decodeOne_lt {b : UInt8} {rest : List UInt8} {c : Char} {tail : List UInt8}
    (h : decodeOne b rest = .ok (c, tail)) : tail.length ≤ rest.length := by
  rcases rest with _ | ⟨b1, _ | ⟨b2, _ | ⟨b3, rest⟩⟩⟩ <;> simp only [decodeOne] at h <;>
    repeat' split at h
  all_goals simp_all <;> omega

/-- Decode from `index` on, in front of the characters already read. -/
def decodeFrom (index : Nat) (bytes : List UInt8) (done : List Char) : Except Malformed (List Char) :=
  match bytes with
  | [] => .ok done.reverse
  | b :: rest =>
      match _h : decodeOne b rest with
      | .error length => .error ⟨index, length⟩
      | .ok (c, tail) => decodeFrom (index + c.utf8Size) tail (c :: done)
  termination_by bytes.length
  decreasing_by
    have := length_decodeOne_lt _h
    simp only [List.length_cons]
    omega

/-- The text whose UTF-8 form the bytes are. -/
def decode (bytes : List UInt8) : Except Malformed String :=
  (decodeFrom 0 bytes []).map String.ofList

/-- The UTF-8 form of a text. -/
def encode (s : String) : List UInt8 := s.toUTF8.toList

end Gazetteer.Text.Utf8

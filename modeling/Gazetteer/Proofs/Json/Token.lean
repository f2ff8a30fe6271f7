import Gazetteer.Json.Parser
import Gazetteer.Json.Printer
import Gazetteer.Proofs.Json.Number
import Gazetteer.Proofs.Outcome

/-!
# Tokens written and read back

Blanks between tokens are skipped, a quoted text is read back as itself (`readString_writeChars`), and a number's
text as the number `Number.reread` says (`readValue_number`).
-/

namespace Gazetteer

set_option autoImplicit false

namespace Json

/-! ## Blanks -/

section Blanks

variable {c : Char} {cs : List Char}

theorem skipSpace_cons (solid : isSpace c = false) : skipSpace (c :: cs) = c :: cs := by
  rw [skipSpace, List.dropWhile_cons, solid, if_neg Bool.false_ne_true]

theorem skipSpace_space (blank : isSpace c = true) : skipSpace (c :: cs) = skipSpace cs := by
  rw [skipSpace, List.dropWhile_cons, blank, if_pos rfl, skipSpace]

theorem skipSpace_indent (level : Nat) (cs : List Char) : skipSpace (indent level cs) = skipSpace cs := by
  rw [indent, skipSpace_space rfl]
  generalize 2 * level = count
  induction count with
  | zero => rfl
  | succ count ih => rw [List.replicate_succ, List.cons_append, skipSpace_space rfl, ih]

theorem length_skipSpace_le (cs : List Char) : (skipSpace cs).length ≤ cs.length :=
  (List.dropWhile_suffix isSpace).length_le

theorem length_indent (level : Nat) (cs : List Char) : cs.length < (indent level cs).length := by
  rw [indent, List.length_cons, List.length_append]
  omega

theorem isSpace_of_isDigit (digit : c.isDigit = true) : isSpace c = false := by
  have bounds : 48 ≤ c.toNat ∧ c.toNat ≤ 57 := Char.isDigit_iff_toNat.1 digit
  have other {d : Char} (low : d.toNat < 48) : decide (c = d) = false := by
    rw [decide_eq_false_iff_not]
    intro same
    rw [same] at bounds
    omega
  simp only [isSpace, other (d := ' ') (by decide), other (d := '\n') (by decide), other (d := '\t') (by decide),
    other (d := '\r') (by decide), Bool.or_self]

end Blanks

/-! ## Quoted texts -/

theorem hexValue_hexDigit : ∀ n < 16, hexValue? (hexDigit n) = some n := by
  decide

/-- A character escaped by its code. -/
theorem readUnicode_code {c : Char} (control : c.toNat < 0x20) (cs : List Char) :
    readUnicode ('0' :: '0' :: hexDigit (c.toNat / 16) :: hexDigit (c.toNat % 16) :: cs) = .ok (c, cs) := by
  have high := hexValue_hexDigit (c.toNat / 16) (by omega)
  have low := hexValue_hexDigit (c.toNat % 16) (by omega)
  have zero : hexValue? '0' = some 0 := rfl
  have code : ((0 * 16 + 0) * 16 + c.toNat / 16) * 16 + c.toNat % 16 = c.toNat := by omega
  have read : readHex ('0' :: '0' :: hexDigit (c.toNat / 16) :: hexDigit (c.toNat % 16) :: cs) = .ok (c.toNat, cs) := by
    rw [readHex, zero, high, low]
    dsimp only
    rw [code]
  have plain : (decide (c.toNat < 0xD800) || decide (0xDBFF < c.toNat)) = true := by
    rw [Bool.or_eq_true, decide_eq_true_eq]
    omega
  have tail : ¬ (decide (0xDC00 ≤ c.toNat) && decide (c.toNat ≤ 0xDFFF)) = true := by
    rw [Bool.and_eq_true, decide_eq_true_eq]
    omega
  rw [readUnicode, read, Outcome.ok_bind]
  dsimp only
  rw [if_neg tail, if_pos plain, Char.ofNat_toNat]

/-- One character, escaped or as itself. -/
theorem readChars_escaped (fuel : Nat) (done : List Char) (c : Char) (cs : List Char) :
    readChars (fuel + 1) done (escaped c ++ cs) = readChars fuel (c :: done) cs := by
  by_cases quote : c = '"'
  · subst quote
    rfl
  by_cases slash : c = '\\'
  · subst slash
    rfl
  by_cases newline : c = '\n'
  · subst newline
    rfl
  by_cases return' : c = '\r'
  · subst return'
    rfl
  by_cases tab : c = '\t'
  · subst tab
    rfl
  by_cases backspace : c = '\x08'
  · subst backspace
    rfl
  by_cases feed : c = '\x0c'
  · subst feed
    rfl
  rw [escaped, if_neg quote, if_neg slash, if_neg newline, if_neg return', if_neg tab, if_neg backspace, if_neg feed]
  split
  · rename_i control
    have plain : ¬ ('\\' = '"') := by decide
    show readChars (fuel + 1) done
      ('\\' :: 'u' :: ('0' :: '0' :: hexDigit (c.toNat / 16) :: hexDigit (c.toNat % 16) :: cs)) = _
    rw [readChars, if_neg plain, if_pos rfl, readEscape, readUnicode_code control, Outcome.ok_bind]
  · rename_i printable
    rw [List.singleton_append, readChars, if_neg quote, if_neg slash, if_neg printable]

theorem readChars_writeChars {fuel : Nat} (done cs rest : List Char) (room : (writeChars cs rest).length < fuel) :
    readChars fuel done (writeChars cs rest) = .ok (String.ofList (done.reverse ++ cs), rest) := by
  induction cs generalizing fuel done with
  | nil =>
    obtain ⟨fuel, rfl⟩ : ∃ k, fuel = k + 1 := ⟨fuel - 1, by omega⟩
    rw [writeChars, readChars, if_pos rfl, List.append_nil]
  | cons c cs ih =>
    obtain ⟨fuel, rfl⟩ : ∃ k, fuel = k + 1 := ⟨fuel - 1, by omega⟩
    have shorter : (writeChars cs rest).length < (writeChars (c :: cs) rest).length := by
      have visible : 0 < (escaped c).length := by
        unfold escaped
        repeat' split
        all_goals exact Nat.succ_pos _
      rw [writeChars, List.length_append]
      omega
    rw [writeChars, readChars_escaped, ih (c :: done) (by omega), List.reverse_cons, List.append_assoc,
      List.singleton_append]

theorem readString_writeChars (s : String) (rest : List Char) :
    readString (writeChars s.toList rest) = .ok (s, rest) := by
  rw [readString, readChars_writeChars [] s.toList rest (Nat.lt_succ_self _), List.reverse_nil, List.nil_append,
    String.ofList_toList]

/-! ## Numbers -/

section Numbers

variable {fuel depth : Nat} {cs ds rest : List Char} {n : Number}

theorem head_of_readNumber {positive : Bool} (read : readNumber positive ds = .ok (n, rest)) :
    ∃ c cs, ds = c :: cs ∧ c.isDigit = true := by
  unfold readNumber at read
  split at read
  · cases read
  · exact ⟨_, _, rfl, rfl⟩
  · rename_i c cs _
    split at read
    · rename_i digit
      rw [digit?_eq] at digit
      split at digit
      · exact ⟨c, cs, rfl, ‹_›⟩
      · cases digit
    · cases read

theorem readValue_positive (front : skipSpace cs = ds) (read : readNumber true ds = .ok (n, rest)) :
    readValue (fuel + 1) depth cs = .ok (.number n, rest) := by
  obtain ⟨c, ds, rfl, digit⟩ := head_of_readNumber read
  have other {d : Char} (letter : d.isDigit = false) : c ≠ d := by
    intro same
    rw [same, letter] at digit
    cases digit
  unfold readValue
  rw [front]
  split
  · contradiction
  · exact absurd (List.cons.inj ‹_›).1 (other rfl)
  · exact absurd (List.cons.inj ‹_›).1 (other rfl)
  · exact absurd (List.cons.inj ‹_›).1 (other rfl)
  · exact absurd (List.cons.inj ‹_›).1 (other rfl)
  · exact absurd (List.cons.inj ‹_›).1 (other rfl)
  · exact absurd (List.cons.inj ‹_›).1 (other rfl)
  · exact absurd (List.cons.inj ‹_›).1 (other rfl)
  · rename_i same
    obtain ⟨rfl, rfl⟩ := List.cons.inj same
    rw [digit?_eq, if_pos digit, Option.isSome_some, if_pos rfl, read, Outcome.ok_bind]
    rfl

theorem readValue_negative (front : skipSpace cs = '-' :: ds) (read : readNumber false ds = .ok (n, rest)) :
    readValue (fuel + 1) depth cs = .ok (.number n, rest) := by
  rw [readValue, front]
  change (readNumber false ds >>= fun read => pure (Json.number read.1, read.2)) = _
  rw [read, Outcome.ok_bind]
  rfl

/-- The text of a number has no blank in front, and no end of an array. -/
theorem lead_text (writable : n.Writable) : ∃ c cs, n.text.toList = c :: cs ∧ isSpace c = false ∧ c ≠ ']' := by
  obtain ⟨m, _, read | ⟨ds, text, _⟩⟩ := readNumber_text writable
  · have whole := read [] rfl
    rw [List.append_nil] at whole
    obtain ⟨c, cs, text, digit⟩ := head_of_readNumber whole
    refine ⟨c, cs, text, isSpace_of_isDigit digit, ?_⟩
    intro bracket
    rw [bracket] at digit
    cases digit
  · exact ⟨'-', ds, text, rfl, by decide⟩

end Numbers

end Json

/-- What a number is read back as. -/
def Number.reread (n : Number) : Number :=
  match Json.readValue 1 0 n.text.toList with
  | .ok (.number m, _) => m
  | _ => n

namespace Json

section Reread

variable {n : Number}

theorem readValue_text (writable : n.Writable) : ∃ m, (∀ k, n = .integer k → m = n) ∧
    ∀ fuel depth cs rest, Stops rest → skipSpace cs = n.text.toList ++ rest →
      readValue (fuel + 1) depth cs = .ok (.number m, rest) := by
  obtain ⟨m, same, read | ⟨ds, text, read⟩⟩ := readNumber_text writable
  · exact ⟨m, same, fun fuel depth cs rest stops front => readValue_positive front (read rest stops)⟩
  · refine ⟨m, same, ?_⟩
    intro fuel depth cs rest stops front
    rw [text] at front
    exact readValue_negative front (read rest stops)

/-- A number is read back the same wherever its text stands, and an integer as itself. -/
theorem reread_spec (writable : n.Writable) : (∀ k, n = .integer k → n.reread = n) ∧
    ∀ fuel depth cs rest, Stops rest → skipSpace cs = n.text.toList ++ rest →
      readValue (fuel + 1) depth cs = .ok (.number n.reread, rest) := by
  obtain ⟨m, same, read⟩ := readValue_text writable
  obtain ⟨c, cs, text, solid, _⟩ := lead_text writable
  have alone : readValue 1 0 n.text.toList = .ok (.number m, []) := by
    apply read 0 0 _ [] rfl
    rw [List.append_nil, text, skipSpace_cons solid]
  have result : n.reread = m := by rw [Number.reread, alone]
  rw [result]
  exact ⟨same, read⟩

theorem reread_integer {k : Int} (range : Number.inRange k = true) : (Number.integer k).reread = .integer k :=
  (reread_spec (n := .integer k) range).1 k rfl

theorem readValue_number {fuel depth : Nat} {cs rest : List Char} (writable : n.Writable) (stops : Stops rest)
    (front : skipSpace cs = n.text.toList ++ rest) : readValue (fuel + 1) depth cs = .ok (.number n.reread, rest) :=
  (reread_spec writable).2 fuel depth cs rest stops front

end Reread

end Json

end Gazetteer

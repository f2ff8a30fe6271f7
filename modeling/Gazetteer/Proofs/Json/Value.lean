import Gazetteer.Proofs.Json.Token
import Gazetteer.Proofs.Ordered.Lookup

/-!
# Values written and read back

A value whose numbers have texts and which is not nested too deep is read back from its pretty text as `Json.reread`
says: with its objects sorted, and the same but for the last bits of its binary fractions (`readValue_pretty`).  Every
value that is read is such a value and canonical (`sound_read`), and comes back as itself if its numbers are integers
(`reread_of_integral`).
-/

namespace Gazetteer

set_option autoImplicit false

namespace Json

/-! ## Values that can be written -/

mutual

/-- The value can be written and read back where `depth` levels may still be opened. -/
def Writable : Json → Nat → Prop
  | .number n, _ => n.Writable
  | .array items, depth + 2 => WritableItems items (depth + 1)
  | .object members, depth + 2 => WritableMembers members (depth + 1)
  | .array _, _ => False
  | .object _, _ => False
  | _, _ => True

def WritableItems : List Json → Nat → Prop
  | [], _ => True
  | item :: items, depth => Writable item depth ∧ WritableItems items depth

def WritableMembers : List (String × Json) → Nat → Prop
  | [], _ => True
  | (_, value) :: members, depth => Writable value depth ∧ WritableMembers members depth

end

mutual

/-- What a value is read back as: its objects are sorted, and its binary fractions may change. -/
def reread : Json → Json
  | .number n => .number n.reread
  | .array items => .array (rereadItems items)
  | .object members =>
    .object ((rereadMembers members).foldl (fun done member => Entries.put member.1 member.2 done) [])
  | value => value

def rereadItems : List Json → List Json
  | [] => []
  | item :: items => reread item :: rereadItems items

def rereadMembers : List (String × Json) → List (String × Json)
  | [] => []
  | (key, value) :: members => (key, reread value) :: rereadMembers members

end

theorem writableItems_iff {items : List Json} {depth : Nat} :
    WritableItems items depth ↔ ∀ item ∈ items, item.Writable depth := by
  induction items with
  | nil => simp [WritableItems]
  | cons item items ih => simp [WritableItems, ih]

theorem writableMembers_iff {members : List (String × Json)} {depth : Nat} :
    WritableMembers members depth ↔ ∀ member ∈ members, member.2.Writable depth := by
  induction members with
  | nil => simp [WritableMembers]
  | cons member members ih => simp [WritableMembers, ih]

theorem canonicalMembers_iff {members : List (String × Json)} :
    CanonicalMembers members ↔ ∀ member ∈ members, member.2.Canonical := by
  induction members with
  | nil => simp [CanonicalMembers]
  | cons member members ih => simp [CanonicalMembers, ih]
theorem rereadMembers_eq_map (members : List (String × Json)) :
    rereadMembers members = members.map fun member => (member.1, member.2.reread) := by
  induction members with
  | nil => rfl
  | cons member members ih => rw [rereadMembers, ih, List.map_cons]

/-! ## The text of a value -/

section Text

variable {level depth : Nat} {rest : List Char}

/-- A written value has no blank in front, and no end of an array. -/
theorem lead_writePretty (level : Nat) (rest : List Char) {v : Json} (writable : v.Writable depth) :
    ∃ c cs, writePretty level v rest = c :: cs ∧ isSpace c = false ∧ c ≠ ']' := by
  cases v with
  | null => exact ⟨'n', _, rfl, rfl, by decide⟩
  | bool b => cases b <;> exact ⟨_, _, rfl, rfl, by decide⟩
  | number n =>
    rw [Writable] at writable
    obtain ⟨c, cs, text, solid, other⟩ := lead_text writable
    refine ⟨c, cs ++ rest, ?_, solid, other⟩
    rw [writePretty, text, List.cons_append]
  | string s => exact ⟨'"', _, rfl, rfl, by decide⟩
  | array items => cases items <;> exact ⟨'[', _, rfl, rfl, by decide⟩
  | object members =>
    cases members with
    | nil => exact ⟨'\x7b', _, rfl, rfl, by decide⟩
    | cons member members =>
      obtain ⟨key, value⟩ := member
      exact ⟨'\x7b', _, rfl, rfl, by decide⟩

theorem skipSpace_writePretty {v : Json} (writable : v.Writable depth) :
    skipSpace (writePretty level v rest) = writePretty level v rest := by
  obtain ⟨c, cs, text, solid, _⟩ := lead_writePretty level rest writable
  rw [text, skipSpace_cons solid]

theorem stops_prettyItems (items : List Json) : Stops (prettyItems level items rest) := by
  cases items <;> rfl

theorem stops_prettyMembers (members : List (String × Json)) : Stops (prettyMembers level members rest) := by
  cases members with
  | nil => rfl
  | cons member members => rfl

end Text

/-! ## Reading it back, step by step -/

section Steps

variable {fuel depth : Nat} {cs ds rest : List Char}

theorem readValue_string {s : String} (front : skipSpace cs = '"' :: ds) (read : readString ds = .ok (s, rest)) :
    readValue (fuel + 1) depth cs = .ok (.string s, rest) := by
  rw [readValue, front]
  change (readString ds >>= fun read => pure (Json.string read.1, read.2)) = _
  rw [read, Outcome.ok_bind]
  rfl

theorem readValue_array {items : List Json} (front : skipSpace cs = '[' :: ds)
    (read : readItems fuel (depth + 1) true ds = .ok (items, rest)) :
    readValue (fuel + 1) (depth + 2) cs = .ok (.array items, rest) := by
  rw [readValue, front]
  change (readItems fuel (depth + 1) true ds >>= fun read => pure (Json.array read.1, read.2)) = _
  rw [read, Outcome.ok_bind]
  rfl

theorem readValue_object {members : List (String × Json)} (front : skipSpace cs = '\x7b' :: ds)
    (read : readMembers fuel (depth + 1) true [] ds = .ok (members, rest)) :
    readValue (fuel + 1) (depth + 2) cs = .ok (.object members, rest) := by
  rw [readValue, front]
  change (readMembers fuel (depth + 1) true [] ds >>= fun read => pure (Json.object read.1, read.2)) = _
  rw [read, Outcome.ok_bind]
  rfl

theorem readItems_end {first : Bool} (front : skipSpace cs = ']' :: rest) :
    readItems (fuel + 1) depth first cs = .ok ([], rest) := by
  have none : moreItems first cs = .ok (false, rest) := by
    rw [moreItems, front]
    rfl
  rw [readItems, none, Outcome.ok_bind]
  rfl

theorem readItems_item {first : Bool} {item : Json} {items : List Json} (more : moreItems first cs = .ok (true, ds))
    {between : List Char} (value : readValue fuel depth ds = .ok (item, between))
    (others : readItems fuel depth false between = .ok (items, rest)) :
    readItems (fuel + 1) depth first cs = .ok (item :: items, rest) := by
  rw [readItems, more, Outcome.ok_bind]
  dsimp only
  rw [if_pos rfl, value, Outcome.ok_bind]
  dsimp only
  rw [others, Outcome.ok_bind]
  rfl

theorem readMembers_end {first : Bool} {done : List (String × Json)} (front : skipSpace cs = '\x7d' :: rest) :
    readMembers (fuel + 1) depth first done cs = .ok (done, rest) := by
  have none : moreMembers first cs = .ok (false, rest) := by
    rw [moreMembers, front]
    rfl
  rw [readMembers, none, Outcome.ok_bind]
  rfl

theorem readMembers_member {first : Bool} {done : List (String × Json)} {key : String} {value : Json}
    {result : List (String × Json) × List Char} {colon blank between : List Char}
    (more : moreMembers first cs = .ok (true, ds)) (name : readString ds = .ok (key, colon))
    (mark : readColon colon = .ok blank) (item : readValue fuel depth blank = .ok (value, between))
    (others : readMembers fuel depth false (Entries.put key value done) between = .ok result) :
    readMembers (fuel + 1) depth first done cs = .ok result := by
  rw [readMembers, more, Outcome.ok_bind]
  dsimp only
  rw [if_pos rfl, name, Outcome.ok_bind]
  dsimp only
  rw [mark, Outcome.ok_bind, item, Outcome.ok_bind]
  exact others

/-- Before the first item. -/
theorem moreItems_first {c : Char} (front : skipSpace cs = c :: ds) (other : c ≠ ']') :
    moreItems true cs = .ok (true, c :: ds) := by
  rw [moreItems, front]
  split
  · contradiction
  · exact absurd (List.cons.inj ‹_›).1 other
  · rfl

/-- Before a further item. -/
theorem moreItems_next {c : Char} {blank : List Char} (front : skipSpace blank = c :: ds) (other : c ≠ ']') :
    moreItems false (',' :: blank) = .ok (true, c :: ds) := by
  have comma : skipSpace (',' :: blank) = ',' :: blank := skipSpace_cons rfl
  simp [moreItems, comma, front, other]

theorem moreMembers_first (front : skipSpace cs = '"' :: ds) : moreMembers true cs = .ok (true, ds) := by
  rw [moreMembers, front]
  rfl

theorem moreMembers_next {blank : List Char} (front : skipSpace blank = '"' :: ds) :
    moreMembers false (',' :: blank) = .ok (true, ds) := by
  have comma : skipSpace (',' :: blank) = ',' :: blank := skipSpace_cons rfl
  simp [moreMembers, comma, front]

theorem readColon_cons (cs : List Char) : readColon (':' :: cs) = .ok cs := by
  rw [readColon, skipSpace_cons rfl]
  rfl

end Steps

/-! ## What follows a text -/

section Append

theorem length_writeString (s : String) (rest : List Char) : rest.length < (writeString s rest).length := by
  rw [writeString, List.length_cons]
  generalize s.toList = cs
  induction cs with
  | nil => exact Nat.lt_succ_of_lt (Nat.lt_succ_self _)
  | cons c cs ih =>
    rw [writeChars, List.length_append]
    omega

theorem writeString_append (s : String) (rest more : List Char) :
    writeString s (rest ++ more) = writeString s rest ++ more := by
  rw [writeString, writeString, List.cons_append]
  congr 1
  generalize s.toList = cs
  induction cs with
  | nil => rfl
  | cons c cs ih => rw [writeChars, writeChars, ih, List.append_assoc]

theorem indent_append (level : Nat) (rest more : List Char) :
    indent level (rest ++ more) = indent level rest ++ more := by
  rw [indent, indent, List.cons_append, List.append_assoc]

mutual

theorem writePretty_append (v : Json) (level : Nat) (rest more : List Char) :
    writePretty level v (rest ++ more) = writePretty level v rest ++ more := by
  match v with
  | .null => rfl
  | .bool true => rfl
  | .bool false => rfl
  | .number n => rw [writePretty, writePretty, List.append_assoc]
  | .string s => rw [writePretty, writePretty, writeString_append]
  | .array [] => rfl
  | .array (item :: items) =>
    rw [writePretty, writePretty, prettyItems_append items, writePretty_append item, indent_append, List.cons_append]
  | .object [] => rfl
  | .object ((key, value) :: members) =>
    rw [writePretty, writePretty, prettyMembers_append members, writePretty_append value, ← List.cons_append,
      ← List.cons_append, writeString_append, indent_append, List.cons_append]

theorem prettyItems_append (items : List Json) (level : Nat) (rest more : List Char) :
    prettyItems level items (rest ++ more) = prettyItems level items rest ++ more := by
  match items with
  | [] => rw [prettyItems, prettyItems, ← List.cons_append, indent_append]
  | item :: items =>
    rw [prettyItems, prettyItems, prettyItems_append items, writePretty_append item, indent_append, List.cons_append]

theorem prettyMembers_append (members : List (String × Json)) (level : Nat) (rest more : List Char) :
    prettyMembers level members (rest ++ more) = prettyMembers level members rest ++ more := by
  match members with
  | [] => rw [prettyMembers, prettyMembers, ← List.cons_append, indent_append]
  | (key, value) :: members =>
    rw [prettyMembers, prettyMembers, prettyMembers_append members, writePretty_append value, ← List.cons_append,
      ← List.cons_append, writeString_append, indent_append, List.cons_append]

end

theorem length_writePretty_le (v : Json) (level : Nat) (rest : List Char) :
    rest.length ≤ (writePretty level v rest).length := by
  have joined := writePretty_append v level [] rest
  rw [List.nil_append] at joined
  rw [joined, List.length_append]
  omega

end Append

/-! ## Reading it back -/

section RoundTrip

/-- The item in front of which a blank line was written. -/
theorem moreItems_indent {item : Json} {depth : Nat} (writable : item.Writable depth) (level level' : Nat)
    (rest : List Char) :
    moreItems true (indent level' (writePretty level item rest)) = .ok (true, writePretty level item rest) ∧
      moreItems false (',' :: indent level' (writePretty level item rest)) =
        .ok (true, writePretty level item rest) := by
  obtain ⟨c, cs, text, solid, other⟩ := lead_writePretty level rest writable
  have front : skipSpace (indent level' (writePretty level item rest)) = c :: cs := by
    rw [skipSpace_indent, text, skipSpace_cons solid]
  rw [moreItems_first front other, moreItems_next front other, text]
  exact ⟨rfl, rfl⟩

theorem skipSpace_indent_writeString (level : Nat) (s : String) (rest : List Char) :
    skipSpace (indent level (writeString s rest)) = '"' :: writeChars s.toList rest := by
  rw [skipSpace_indent]
  exact skipSpace_cons rfl

theorem skipSpace_space_writePretty {v : Json} {depth : Nat} (writable : v.Writable depth) (level : Nat)
    (rest : List Char) : skipSpace (' ' :: writePretty level v rest) = writePretty level v rest := by
  rw [skipSpace_space rfl, skipSpace_writePretty writable]

/-- The fuel for an item that stands on a line of its own is enough for the item and for what follows it. -/
theorem room_of_item {item : Json} {level fuel : Nat} {rest : List Char}
    (room : (indent level (writePretty level item rest)).length < fuel + 1) :
    (writePretty level item rest).length < fuel ∧ rest.length < fuel := by
  have blank := length_indent level (writePretty level item rest)
  have behind := length_writePretty_le item level rest
  omega

/-- The fuel for a member that stands on a line of its own is enough for its value and for what follows it. -/
theorem room_of_member {key : String} {value : Json} {level fuel : Nat} {rest : List Char}
    (room : (indent level (writeString key (':' :: ' ' :: writePretty level value rest))).length < fuel + 1) :
    (' ' :: writePretty level value rest).length < fuel ∧ rest.length < fuel := by
  have blank := length_indent level (writeString key (':' :: ' ' :: writePretty level value rest))
  have name := length_writeString key (':' :: ' ' :: writePretty level value rest)
  have behind := length_writePretty_le value level rest
  rw [List.length_cons, List.length_cons] at name
  rw [List.length_cons]
  omega

mutual

theorem readValue_pretty (v : Json) {level depth fuel : Nat} {cs rest : List Char} (writable : v.Writable depth)
    (stops : Stops rest) (front : skipSpace cs = writePretty level v rest) (room : cs.length < fuel) :
    readValue fuel depth cs = .ok (v.reread, rest) := by
  obtain ⟨fuel, rfl⟩ : ∃ k, fuel = k + 1 := ⟨fuel - 1, by omega⟩
  have shorter := length_skipSpace_le cs
  rw [front] at shorter
  match v with
  | .null =>
    rw [readValue, front]
    rfl
  | .bool true =>
    rw [readValue, front]
    rfl
  | .bool false =>
    rw [readValue, front]
    rfl
  | .number n =>
    rw [Writable] at writable
    exact readValue_number writable stops front
  | .string s => exact readValue_string front (readString_writeChars s rest)
  | .array [] =>
    match depth with
    | depth + 2 =>
      obtain ⟨fuel, rfl⟩ : ∃ k, fuel = k + 1 := ⟨fuel - 1, by rw [writePretty, List.length_cons] at shorter; omega⟩
      exact readValue_array front (readItems_end (skipSpace_cons rfl))
  | .array (item :: items) =>
    match depth with
    | depth + 2 =>
      rw [Writable, WritableItems] at writable
      rw [writePretty, List.length_cons] at shorter
      obtain ⟨fuel, rfl⟩ : ∃ k, fuel = k + 1 := ⟨fuel - 1, by omega⟩
      obtain ⟨here, behind⟩ := room_of_item (Nat.lt_of_succ_lt_succ (Nat.lt_of_le_of_lt shorter room))
      exact readValue_array front (readItems_item (moreItems_indent writable.1 _ _ _).1
        (readValue_pretty item writable.1 (stops_prettyItems items) (skipSpace_writePretty writable.1) here)
        (readItems_pretty items writable.2 behind))
  | .object [] =>
    match depth with
    | depth + 2 =>
      obtain ⟨fuel, rfl⟩ : ∃ k, fuel = k + 1 := ⟨fuel - 1, by rw [writePretty, List.length_cons] at shorter; omega⟩
      exact readValue_object front (readMembers_end (skipSpace_cons rfl))
  | .object ((key, value) :: members) =>
    match depth with
    | depth + 2 =>
      rw [Writable, WritableMembers] at writable
      obtain ⟨first, others⟩ := writable
      rw [writePretty, List.length_cons] at shorter
      obtain ⟨fuel, rfl⟩ : ∃ k, fuel = k + 1 := ⟨fuel - 1, by omega⟩
      obtain ⟨here, behind⟩ := room_of_member (Nat.lt_of_succ_lt_succ (Nat.lt_of_le_of_lt shorter room))
      exact readValue_object front
        (readMembers_member (moreMembers_first (skipSpace_indent_writeString (level + 1) key _))
          (readString_writeChars key _) (readColon_cons _)
          (readValue_pretty value first (stops_prettyMembers members) (skipSpace_space_writePretty first _ _) here)
          (readMembers_pretty members others behind))

theorem readItems_pretty (items : List Json) {level depth fuel : Nat} {rest : List Char}
    (writable : WritableItems items depth) (room : (prettyItems level items rest).length < fuel) :
    readItems fuel depth false (prettyItems level items rest) = .ok (rereadItems items, rest) := by
  obtain ⟨fuel, rfl⟩ : ∃ k, fuel = k + 1 := ⟨fuel - 1, by omega⟩
  match items with
  | [] => exact readItems_end ((skipSpace_indent level _).trans (skipSpace_cons rfl))
  | item :: items =>
    rw [WritableItems] at writable
    rw [prettyItems, List.length_cons] at room
    obtain ⟨here, behind⟩ := room_of_item (Nat.lt_of_succ_lt room)
    exact readItems_item (moreItems_indent writable.1 _ _ _).2
      (readValue_pretty item writable.1 (stops_prettyItems items) (skipSpace_writePretty writable.1) here)
      (readItems_pretty items writable.2 behind)

theorem readMembers_pretty (members : List (String × Json)) {level depth fuel : Nat} {done : List (String × Json)}
    {rest : List Char} (writable : WritableMembers members depth)
    (room : (prettyMembers level members rest).length < fuel) :
    readMembers fuel depth false done (prettyMembers level members rest) =
      .ok ((rereadMembers members).foldl (fun done member => Entries.put member.1 member.2 done) done, rest) := by
  obtain ⟨fuel, rfl⟩ : ∃ k, fuel = k + 1 := ⟨fuel - 1, by omega⟩
  match members with
  | [] => exact readMembers_end ((skipSpace_indent level _).trans (skipSpace_cons rfl))
  | (key, value) :: members =>
    rw [WritableMembers] at writable
    rw [prettyMembers, List.length_cons] at room
    obtain ⟨here, behind⟩ := room_of_member (Nat.lt_of_succ_lt room)
    exact readMembers_member (moreMembers_next (skipSpace_indent_writeString (level + 1) key _))
      (readString_writeChars key _) (readColon_cons _)
      (readValue_pretty value writable.1 (stops_prettyMembers members) (skipSpace_space_writePretty writable.1 _ _)
        here)
      (readMembers_pretty members writable.2 behind)

end

/-- The text of a value and the line break behind it. -/
theorem parse_pretty {v : Json} (writable : v.Writable depthLimit) :
    Json.parse (v.pretty ++ "\n") = .ok v.reread := by
  have text : (v.pretty ++ "\n").toList = writePretty 0 v ['\n'] := by
    have joined := writePretty_append v 0 [] ['\n']
    rw [List.nil_append] at joined
    rw [String.toList_append, pretty, String.toList_ofList, joined]
    rfl
  have ends : Stops ['\n'] := rfl
  have read := readValue_pretty v writable ends (skipSpace_writePretty writable)
    (Nat.lt_succ_self (writePretty 0 v ['\n']).length)
  rw [parse, text, readWhole, read, Outcome.ok_bind]
  rfl

end RoundTrip

/-! ## What is read -/

section Read

theorem sound_readNumber {positive : Bool} {cs rest : List Char} {v : Json} {depth : Nat}
    (read : (readNumber positive cs >>= fun read => pure (Json.number read.1, read.2)) = .ok (v, rest)) :
    v.Writable depth ∧ v.Canonical := by
  obtain ⟨⟨n, _⟩, number, same⟩ := Outcome.bind_eq_ok.1 read
  cases same
  exact ⟨writable_readNumber number, by simp [Canonical]⟩

/-- With so much fuel, every value that is read can be written where it stood, and its objects are sorted. -/
def SoundValues (fuel : Nat) : Prop :=
  ∀ {depth : Nat} {cs : List Char} {v : Json} {rest : List Char}, readValue fuel depth cs = .ok (v, rest) →
    v.Writable depth ∧ v.Canonical

/-- With so much fuel, all items that are read are such values. -/
def SoundItems (fuel : Nat) : Prop :=
  ∀ {depth : Nat} {first : Bool} {cs : List Char} {items : List Json} {rest : List Char},
    readItems fuel depth first cs = .ok (items, rest) → WritableItems items depth ∧ CanonicalItems items

/-- With so much fuel, members that are read among sorted members with such values are sorted and have such values. -/
def SoundMembers (fuel : Nat) : Prop :=
  ∀ {depth : Nat} {first : Bool} {done : List (String × Json)} {cs : List Char} {members : List (String × Json)}
    {rest : List Char}, readMembers fuel depth first done cs = .ok (members, rest) → Entries.Sorted done →
      WritableMembers done depth → CanonicalMembers done →
      Entries.Sorted members ∧ WritableMembers members depth ∧ CanonicalMembers members

variable {fuel : Nat}

theorem soundValues_succ (lists : SoundItems fuel) (objects : SoundMembers fuel) : SoundValues (fuel + 1) := by
  intro depth cs v rest read
  unfold readValue at read
  split at read
  · cases read
  · obtain ⟨_, _, same⟩ := Outcome.bind_eq_ok.1 read
    cases same
    simp [Writable, Canonical]
  · obtain ⟨_, _, same⟩ := Outcome.bind_eq_ok.1 read
    cases same
    simp [Writable, Canonical]
  · obtain ⟨_, _, same⟩ := Outcome.bind_eq_ok.1 read
    cases same
    simp [Writable, Canonical]
  · exact sound_readNumber read
  · obtain ⟨_, _, same⟩ := Outcome.bind_eq_ok.1 read
    cases same
    simp [Writable, Canonical]
  · split at read
    · obtain ⟨⟨items, _⟩, list, same⟩ := Outcome.bind_eq_ok.1 read
      cases same
      rw [Writable, Canonical]
      exact lists list
    · cases read
  · split at read
    · obtain ⟨⟨members, _⟩, object, same⟩ := Outcome.bind_eq_ok.1 read
      cases same
      obtain ⟨sorted, writable, canonical⟩ := objects object List.Pairwise.nil trivial trivial
      rw [Writable, Canonical]
      exact ⟨writable, sorted, canonical⟩
    · cases read
  · split at read
    · exact sound_readNumber read
    · cases read

theorem soundItems_succ (values : SoundValues fuel) (lists : SoundItems fuel) : SoundItems (fuel + 1) := by
  intro depth first cs items rest read
  rw [readItems] at read
  obtain ⟨⟨more, _⟩, _, read⟩ := Outcome.bind_eq_ok.1 read
  dsimp only at read
  split at read
  · obtain ⟨⟨item, _⟩, head, read⟩ := Outcome.bind_eq_ok.1 read
    obtain ⟨⟨others, _⟩, tail, same⟩ := Outcome.bind_eq_ok.1 read
    cases same
    rw [WritableItems, CanonicalItems]
    exact ⟨⟨(values head).1, (lists tail).1⟩, (values head).2, (lists tail).2⟩
  · cases read
    exact ⟨trivial, trivial⟩

theorem soundMembers_succ (values : SoundValues fuel) (objects : SoundMembers fuel) : SoundMembers (fuel + 1) := by
  intro depth first done cs members rest read sorted writable canonical
  rw [readMembers] at read
  obtain ⟨⟨more, _⟩, _, read⟩ := Outcome.bind_eq_ok.1 read
  dsimp only at read
  split at read
  · obtain ⟨⟨key, _⟩, _, read⟩ := Outcome.bind_eq_ok.1 read
    obtain ⟨_, _, read⟩ := Outcome.bind_eq_ok.1 read
    obtain ⟨⟨value, _⟩, item, read⟩ := Outcome.bind_eq_ok.1 read
    obtain ⟨fits, ordered⟩ := values item
    refine objects read (Entries.sorted_put sorted) ?_ ?_
    · rw [writableMembers_iff] at writable ⊢
      intro member new
      obtain rfl | old := Entries.mem_put new
      · exact fits
      · exact writable member old
    · rw [canonicalMembers_iff] at canonical ⊢
      intro member new
      obtain rfl | old := Entries.mem_put new
      · exact ordered
      · exact canonical member old
  · cases read
    exact ⟨sorted, writable, canonical⟩

/-- Whatever is read is sound, by the fuel that the three readers share. -/
theorem sound_read (fuel : Nat) : SoundValues fuel ∧ SoundItems fuel ∧ SoundMembers fuel := by
  induction fuel with
  | zero => exact ⟨nofun, nofun, nofun⟩
  | succ fuel ih =>
    obtain ⟨values, lists, objects⟩ := ih
    exact ⟨soundValues_succ lists objects, soundItems_succ values lists, soundMembers_succ values objects⟩

theorem writable_of_parse {text : String} {v : Json} (read : parse text = .ok v) :
    v.Writable depthLimit ∧ v.Canonical := by
  rw [parse, Outcome.mapError_eq_ok, readWhole] at read
  obtain ⟨⟨value, rest⟩, front, read⟩ := Outcome.bind_eq_ok.1 read
  dsimp only at read
  split at read
  · cases read
    exact (sound_read _).1 front
  · cases read

end Read

/-! ## Integers -/

mutual

/-- All numbers in the value are integers. -/
def Integral : Json → Prop
  | .number (.real _) => False
  | .array items => IntegralItems items
  | .object members => IntegralMembers members
  | _ => True

def IntegralItems : List Json → Prop
  | [] => True
  | item :: items => Integral item ∧ IntegralItems items

def IntegralMembers : List (String × Json) → Prop
  | [] => True
  | (_, value) :: members => Integral value ∧ IntegralMembers members

end

mutual

theorem reread_of_integral (v : Json) {depth : Nat} (writable : v.Writable depth) (canonical : v.Canonical)
    (integral : v.Integral) : v.reread = v := by
  match v with
  | .null => rfl
  | .bool _ => rfl
  | .number (.integer k) =>
    rw [Writable] at writable
    rw [reread, reread_integer writable]
  | .string _ => rfl
  | .array items =>
    match depth with
    | depth + 2 =>
      rw [Writable] at writable
      rw [Canonical] at canonical
      rw [Integral] at integral
      rw [reread, rereadItems_of_integral items writable canonical integral]
  | .object members =>
    match depth with
    | depth + 2 =>
      rw [Writable] at writable
      rw [Canonical] at canonical
      rw [Integral] at integral
      rw [reread, rereadMembers_of_integral members writable canonical.2 integral,
        SortedMap.foldl_put_of_sorted canonical.1]

theorem rereadItems_of_integral (items : List Json) {depth : Nat} (writable : WritableItems items depth)
    (canonical : CanonicalItems items) (integral : IntegralItems items) : rereadItems items = items := by
  match items with
  | [] => rfl
  | item :: items =>
    rw [WritableItems] at writable
    rw [CanonicalItems] at canonical
    rw [IntegralItems] at integral
    rw [rereadItems, reread_of_integral item writable.1 canonical.1 integral.1,
      rereadItems_of_integral items writable.2 canonical.2 integral.2]

theorem rereadMembers_of_integral (members : List (String × Json)) {depth : Nat}
    (writable : WritableMembers members depth)
    (canonical : CanonicalMembers members) (integral : IntegralMembers members) :
    rereadMembers members = members := by
  match members with
  | [] => rfl
  | (key, value) :: members =>
    rw [WritableMembers] at writable
    rw [CanonicalMembers] at canonical
    rw [IntegralMembers] at integral
    rw [rereadMembers, reread_of_integral value writable.1 canonical.1 integral.1,
      rereadMembers_of_integral members writable.2 canonical.2 integral.2]

end

end Json

end Gazetteer

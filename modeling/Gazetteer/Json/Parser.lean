import Gazetteer.Json.Number
import Gazetteer.Text.Position

/-!
# Reading JSON

`Json.parse` reads a whole text as one value.  Objects come out sorted by key; of equal keys the last one
stays.  A value may be nested at most 127 deep.  The reading functions take the text that is left and give
back what they leave; a fault carries that text, from which its position is found.
-/

namespace Gazetteer.Json

set_option autoImplicit false

open Text (Position)

/-- A text that is no JSON: the problem and where it was found. -/
structure ParseError where
  problem : Problem
  position : Position
  deriving Repr, DecidableEq

/-- A message followed by the position it speaks of. -/
def located (message : String) (p : Position) : String :=
  s!"{message} at line {p.line} column {p.column}"

/-- How the error reads. -/
def ParseError.message (e : ParseError) : String := located e.problem.message e.position

/-- Find the position of a fault. -/
def Fault.locate (text : List Char) (f : Fault) : ParseError :=
  ⟨f.problem, Position.before text f.rest f.ahead⟩

/-- Values may not be nested this deep. -/
def depthLimit : Nat := 128

/-- A blank between tokens. -/
def isSpace (c : Char) : Bool := c = ' ' || c = '\n' || c = '\t' || c = '\r'

/-- The text after leading blanks. -/
def skipSpace (cs : List Char) : List Char := cs.dropWhile isSpace

/-- The value of a digit to base sixteen. -/
def hexValue? (c : Char) : Option Nat :=
  if '0' ≤ c && c ≤ '9' then some (c.toNat - 48)
  else if 'a' ≤ c && c ≤ 'f' then some (c.toNat - 87)
  else if 'A' ≤ c && c ≤ 'F' then some (c.toNat - 55)
  else none

/-- Four digits to base sixteen. -/
def readHex : List Char → Except Fault (Nat × List Char)
  | a :: b :: c :: d :: cs =>
      match hexValue? a, hexValue? b, hexValue? c, hexValue? d with
      | some a, some b, some c, some d => .ok (((a * 16 + b) * 16 + c) * 16 + d, cs)
      | _, _, _, _ => .error ⟨.invalidEscape, a :: b :: c :: d :: cs, 4⟩
  | cs =>
      if 4 ≤ Text.byteLength cs then .error ⟨.invalidEscape, cs, 4⟩
      else .error ⟨.unfinishedString, [], 0⟩

/-- The rest of an escape with digits: two escapes stand for one character beyond the basic plane. -/
def readUnicode (cs : List Char) : Except Fault (Char × List Char) := do
  let (n, cs) ← readHex cs
  if 0xDC00 ≤ n && n ≤ 0xDFFF then .error ⟨.loneSurrogate, cs, 0⟩
  else if n < 0xD800 || 0xDBFF < n then .ok (Char.ofNat n, cs)
  else
    match cs with
    | [] => .error ⟨.unfinishedString, [], 0⟩
    | '\\' :: [] => .error ⟨.unfinishedString, [], 0⟩
    | '\\' :: 'u' :: cs =>
        let (low, cs) ← readHex cs
        if low < 0xDC00 || 0xDFFF < low then .error ⟨.loneSurrogate, cs, 0⟩
        else .ok (Char.ofNat (0x10000 + (n - 0xD800) * 0x400 + (low - 0xDC00)), cs)
    | '\\' :: cs => .error ⟨.unfinishedEscape, cs, 1⟩
    | cs => .error ⟨.unfinishedEscape, cs, 1⟩

/-- What follows a backslash. -/
def readEscape : List Char → Except Fault (Char × List Char)
  | [] => .error ⟨.unfinishedString, [], 0⟩
  | 'u' :: cs => readUnicode cs
  | c :: cs =>
      match c with
      | '"' => .ok ('"', cs)
      | '\\' => .ok ('\\', cs)
      | '/' => .ok ('/', cs)
      | 'b' => .ok ('\x08', cs)
      | 'f' => .ok ('\x0c', cs)
      | 'n' => .ok ('\n', cs)
      | 'r' => .ok ('\r', cs)
      | 't' => .ok ('\t', cs)
      | _ => .error ⟨.invalidEscape, c :: cs, 1⟩

/-- The characters up to the closing quote, behind those already read. -/
def readChars : (fuel : Nat) → List Char → List Char → Except Fault (String × List Char)
  | 0, _, cs => .error ⟨.unfinishedString, cs, 0⟩
  | _, _, [] => .error ⟨.unfinishedString, [], 0⟩
  | fuel + 1, done, c :: cs =>
      if c = '"' then .ok (String.ofList done.reverse, cs)
      else if c = '\\' then do
        let (d, cs) ← readEscape cs
        readChars fuel (d :: done) cs
      else if c.toNat < 0x20 then .error ⟨.controlCharacter, c :: cs, 1⟩
      else readChars fuel (c :: done) cs

/-- A quoted text after its opening quote. -/
def readString (cs : List Char) : Except Fault (String × List Char) := readChars (cs.length + 1) [] cs

/-- The letters of a word. -/
def readWord : (word : List Char) → List Char → Except Fault (List Char)
  | [], cs => .ok cs
  | _ :: _, [] => .error ⟨.unfinishedValue, [], 0⟩
  | w :: word, c :: cs => if w = c then readWord word cs else .error ⟨.expectedWord, c :: cs, 1⟩

/-- The colon after a key. -/
def readColon (cs : List Char) : Except Fault (List Char) :=
  match skipSpace cs with
  | [] => .error ⟨.unfinishedObject, [], 0⟩
  | ':' :: cs => .ok cs
  | cs => .error ⟨.expectedColon, cs, 1⟩

/-- Before an item of an array: `true` when one follows, `false` at the end. -/
def moreItems (first : Bool) (cs : List Char) : Except Fault (Bool × List Char) :=
  match skipSpace cs with
  | [] => .error ⟨.unfinishedList, [], 0⟩
  | ']' :: cs => .ok (false, cs)
  | cs =>
      if first then .ok (true, cs)
      else
        match cs with
        | ',' :: cs =>
            match skipSpace cs with
            | [] => .error ⟨.unfinishedValue, [], 0⟩
            | ']' :: cs => .error ⟨.trailingComma, ']' :: cs, 1⟩
            | cs => .ok (true, cs)
        | cs => .error ⟨.expectedListEnd, cs, 1⟩

/-- Before a member of an object: `true` after the opening quote of a key, `false` at the end. -/
def moreMembers (first : Bool) (cs : List Char) : Except Fault (Bool × List Char) :=
  match skipSpace cs with
  | [] => .error ⟨.unfinishedObject, [], 0⟩
  | '\x7d' :: cs => .ok (false, cs)
  | cs =>
      if first then
        match cs with
        | '"' :: cs => .ok (true, cs)
        | cs => .error ⟨.keyNotString, cs, 1⟩
      else
        match cs with
        | ',' :: cs =>
            match skipSpace cs with
            | [] => .error ⟨.unfinishedValue, [], 0⟩
            | '"' :: cs => .ok (true, cs)
            | '\x7d' :: cs => .error ⟨.trailingComma, '\x7d' :: cs, 1⟩
            | cs => .error ⟨.keyNotString, cs, 1⟩
        | cs => .error ⟨.expectedObjectEnd, cs, 1⟩

mutual

/-- A value at the start of the text. `depth` is the number of levels that may still be opened. -/
def readValue : (fuel depth : Nat) → List Char → Except Fault (Json × List Char)
  | 0, _, cs => .error ⟨.unfinishedValue, cs, 0⟩
  | fuel + 1, depth, cs =>
      match skipSpace cs with
      | [] => .error ⟨.unfinishedValue, [], 0⟩
      | 'n' :: cs => do return (.null, ← readWord ['u', 'l', 'l'] cs)
      | 't' :: cs => do return (.bool true, ← readWord ['r', 'u', 'e'] cs)
      | 'f' :: cs => do return (.bool false, ← readWord ['a', 'l', 's', 'e'] cs)
      | '-' :: cs => do
          let (n, cs) ← readNumber false cs
          return (.number n, cs)
      | '"' :: cs => do
          let (s, cs) ← readString cs
          return (.string s, cs)
      | '[' :: cs =>
          match depth with
          | depth + 2 => do
              let (items, cs) ← readItems fuel (depth + 1) true cs
              return (.array items, cs)
          | _ => .error ⟨.tooDeep, '[' :: cs, 1⟩
      | '\x7b' :: cs =>
          match depth with
          | depth + 2 => do
              let (members, cs) ← readMembers fuel (depth + 1) true [] cs
              return (.object members, cs)
          | _ => .error ⟨.tooDeep, '\x7b' :: cs, 1⟩
      | c :: cs =>
          if (digit? c).isSome then do
            let (n, cs) ← readNumber true (c :: cs)
            return (.number n, cs)
          else .error ⟨.expectedValue, c :: cs, 1⟩

/-- The items of an array up to its end. -/
def readItems : (fuel depth : Nat) → (first : Bool) → List Char →
    Except Fault (List Json × List Char)
  | 0, _, _, cs => .error ⟨.unfinishedList, cs, 0⟩
  | fuel + 1, depth, first, cs => do
      let (more, cs) ← moreItems first cs
      if more then
        let (item, cs) ← readValue fuel depth cs
        let (items, cs) ← readItems fuel depth false cs
        return (item :: items, cs)
      else return ([], cs)

/-- The members of an object up to its end, entered among those already read. -/
def readMembers : (fuel depth : Nat) → (first : Bool) → List (String × Json) → List Char →
    Except Fault (List (String × Json) × List Char)
  | 0, _, _, _, cs => .error ⟨.unfinishedObject, cs, 0⟩
  | fuel + 1, depth, first, done, cs => do
      let (more, cs) ← moreMembers first cs
      if more then
        let (key, cs) ← readString cs
        let cs ← readColon cs
        let (value, cs) ← readValue fuel depth cs
        readMembers fuel depth false (Entries.put key value done) cs
      else return (done, cs)

end

/-- A whole text as one value, up to the position of a fault. -/
def readWhole (text : List Char) : Except Fault Json := do
  let (value, rest) ← readValue (text.length + 1) depthLimit text
  match skipSpace rest with
  | [] => .ok value
  | rest => .error ⟨.trailingCharacters, rest, 1⟩

/-- Read a text as one value. -/
def parse (text : String) : Except ParseError Json :=
  (readWhole text.toList).mapError (Fault.locate text.toList)

end Gazetteer.Json

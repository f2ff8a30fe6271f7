import Gazetteer.Json.Parser

/-!
# Skipping JSON

A value that nobody asks for is skipped with less care than one that is read: its numbers may have any size,
its escapes may form half a character, and it may be nested to any depth.
-/

namespace Gazetteer.Json

set_option autoImplicit false

/-- The text behind a quoted text whose opening quote is past. -/
def skipChars : (fuel : Nat) → List Char → Except Fault (List Char)
  | 0, cs => .error ⟨.unfinishedString, cs, 0⟩
  | _, [] => .error ⟨.unfinishedString, [], 0⟩
  | fuel + 1, c :: cs =>
      if c = '"' then .ok cs
      else if c = '\\' then
        match cs with
        | [] => .error ⟨.unfinishedString, [], 0⟩
        | 'u' :: cs => do
            let (_, cs) ← readHex cs
            skipChars fuel cs
        | d :: cs =>
            if "\"\\/bfnrt".toList.contains d then skipChars fuel cs
            else .error ⟨.invalidEscape, d :: cs, 1⟩
      else if c.toNat < 0x20 then .error ⟨.controlCharacter, c :: cs, 0⟩
      else skipChars fuel cs

/-- The text behind a quoted text whose opening quote is past. -/
def skipString (cs : List Char) : Except Fault (List Char) := skipChars (cs.length + 1) cs

/-- The text behind a run of digits. -/
def skipDigits (cs : List Char) : List Char := cs.dropWhile fun c => (digit? c).isSome

/-- The text behind an exponent, if there is one. -/
def skipExponent (cs : List Char) : Except Fault (List Char) :=
  if atExponent cs then
    let cs := match cs.drop 1 with
      | '+' :: cs => cs
      | '-' :: cs => cs
      | cs => cs
    match cs with
    | c :: rest => if (digit? c).isSome then .ok (skipDigits rest) else .error ⟨.invalidNumber, cs, 1⟩
    | [] => .error ⟨.invalidNumber, [], 0⟩
  else .ok cs

/-- The text behind a number without its sign. -/
def skipNumber (cs : List Char) : Except Fault (List Char) := do
  let cs ← match cs with
    | '0' :: rest =>
        match rest with
        | c :: _ => if (digit? c).isSome then .error ⟨.invalidNumber, rest, 1⟩ else .ok rest
        | [] => .ok []
    | c :: rest => if (digit? c).isSome then .ok (skipDigits rest) else .error ⟨.invalidNumber, cs, 1⟩
    | [] => .error ⟨.invalidNumber, [], 0⟩
  match cs with
  | '.' :: rest =>
      match rest with
      | c :: _ =>
          if (digit? c).isSome then skipExponent (skipDigits rest)
          else .error ⟨.invalidNumber, rest, 1⟩
      | [] => .error ⟨.invalidNumber, [], 0⟩
  | cs => skipExponent cs

/-- What encloses a skipped value. -/
inductive Frame
  | list
  | object
  deriving Repr, DecidableEq

/-- The bracket that ends a frame. -/
def Frame.closing : Frame → Char
  | .list => ']'
  | .object => '\x7d'

/-- After a value or an opening bracket: close frames, or find that another item follows. `none` says that
everything is closed. -/
def closeFrames (afterItem : Bool) : List Frame → List Char →
    Except Fault (Option (Frame × List Frame) × List Char)
  | [], cs => .ok (none, cs)
  | frame :: frames, cs =>
      match skipSpace cs with
      | [] =>
          .error ⟨match frame with | .list => .unfinishedList | .object => .unfinishedObject, [], 0⟩
      | c :: rest =>
          if c = ',' && afterItem then .ok (some (frame, frames), rest)
          else if c = frame.closing then closeFrames true frames rest
          else if afterItem then
            .error ⟨match frame with | .list => .expectedListEnd | .object => .expectedObjectEnd,
              c :: rest, 1⟩
          else .ok (some (frame, frames), c :: rest)

/-- The key of a skipped member and its colon. -/
def skipKey (cs : List Char) : Except Fault (List Char) :=
  match skipSpace cs with
  | [] => .error ⟨.unfinishedObject, [], 0⟩
  | '"' :: cs => do readColon (← skipString cs)
  | cs => .error ⟨.keyNotString, cs, 1⟩

/-- The text behind a value within the given frames. -/
def skipWithin : (fuel : Nat) → List Frame → List Char → Except Fault (List Char)
  | 0, _, cs => .error ⟨.unfinishedValue, cs, 0⟩
  | fuel + 1, frames, cs => do
      let (opened, cs) ← match skipSpace cs with
        | [] => .error ⟨.unfinishedValue, [], 0⟩
        | 'n' :: cs => do pure (none, ← readWord ['u', 'l', 'l'] cs)
        | 't' :: cs => do pure (none, ← readWord ['r', 'u', 'e'] cs)
        | 'f' :: cs => do pure (none, ← readWord ['a', 'l', 's', 'e'] cs)
        | '-' :: cs => do pure (none, ← skipNumber cs)
        | '"' :: cs => do pure (none, ← skipString cs)
        | '[' :: cs => .ok (some Frame.list, cs)
        | '\x7b' :: cs => .ok (some Frame.object, cs)
        | c :: cs =>
            if (digit? c).isSome then do pure (none, ← skipNumber (c :: cs))
            else .error ⟨.expectedValue, c :: cs, 1⟩
      let (afterItem, frames) := match opened with
        | some frame => (false, frame :: frames)
        | none => (true, frames)
      match ← closeFrames afterItem frames cs with
      | (none, cs) => .ok cs
      | (some (.list, frames), cs) => skipWithin fuel (.list :: frames) cs
      | (some (.object, frames), cs) => do
          skipWithin fuel (.object :: frames) (← skipKey cs)

/-- The text behind a value. -/
def skipValue (cs : List Char) : Except Fault (List Char) := skipWithin (cs.length + 1) [] cs

end Gazetteer.Json

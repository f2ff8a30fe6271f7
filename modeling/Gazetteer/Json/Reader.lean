import Gazetteer.Json.Decode
import Gazetteer.Json.Skip

/-!
# Reading records straight from text

A `Reader α` reads a value of a known shape from the text in front of it, so that a value of the wrong shape
is reported where it stands, and before anything that is wrong with the text behind it.  A mismatch carries the
text that is left at that point.
-/

namespace Gazetteer.Json

set_option autoImplicit false

/-- Why a text cannot be read as a value of the shape asked for. -/
inductive Trouble
  | malformed (fault : Fault)
  | mismatch (cause : Mismatch) (rest : List Char)
  /-- What was read makes no sense as a whole, wherever it stands. -/
  | refused (message : String)
  deriving Repr, DecidableEq

/-- How the trouble reads, for a given text. -/
def Trouble.message (text : List Char) : Trouble → String
  | .malformed fault => (fault.locate text).message
  | .mismatch cause rest => located cause.message (Text.Position.before text rest 0)
  | .refused message => message

/-- Reads a value from the front of a text. -/
abbrev Reader := StateT (List Char) (Except Trouble)

namespace Reader

/-- A reading step that knows no shapes. -/
def plain {α : Type} (step : List Char → Except Fault (α × List Char)) : Reader α :=
  fun cs => (step cs).mapError .malformed

/-- The error for a value that is not what was expected: scalars are read first, brackets are not. -/
def mismatched {α : Type} (expected : String) : Reader α := fun cs =>
  let cs := skipSpace cs
  let report (found : String) (rest : List Char) : Except Trouble (α × List Char) :=
    .error (.mismatch (.kind found expected) rest)
  match cs with
  | [] => .error (.malformed ⟨.unfinishedValue, [], 0⟩)
  | '[' :: _ => report "sequence" cs
  | '\x7b' :: _ => report "map" cs
  | _ =>
      match readValue (cs.length + 1) depthLimit cs with
      | .error fault => .error (.malformed fault)
      | .ok (value, rest) => report (kindOf value) rest

/-- A text. -/
def text : Reader String := fun cs =>
  match skipSpace cs with
  | '"' :: cs => plain readString cs
  | cs => mismatched "a string" cs

/-- Any value; `depth` levels may still be opened. -/
def value (depth : Nat) : Reader Json := plain fun cs => readValue (cs.length + 1) depth cs

/-- Skip a value. -/
def skip : Reader Unit := plain fun cs => do return ((), ← skipValue cs)

/-- A value that may be `null`. -/
def optional {α : Type} (read : Reader α) : Reader (Option α) := fun cs =>
  match skipSpace cs with
  | 'n' :: cs => plain (fun cs => do return (none, ← readWord ['u', 'l', 'l'] cs)) cs
  | cs => (some <$> read) cs

/-- The remaining members of an object with keys of any name, entered among those already read. -/
def members {α : Type} (read : Reader α) : (fuel : Nat) → (first : Bool) → SortedMap String α →
    Reader (SortedMap String α)
  | 0, _, done => return done
  | fuel + 1, first, done => do
      if ← plain (moreMembers first) then
        let key ← plain readString
        plain fun cs => do return ((), ← readColon cs)
        let a ← read
        members read fuel false (done.insert key a)
      else return done

/-- An object with keys of any name. -/
def mapping {α : Type} (read : Reader α) : Reader (SortedMap String α) := fun cs =>
  match skipSpace cs with
  | '\x7b' :: cs => members read (cs.length + 1) true ∅ cs
  | cs => mismatched "a map" cs

end Reader

namespace Fields

/-- Where a report about an object as a whole points: behind its end, if that comes next. -/
def afterObject (cs : List Char) : List Char :=
  match skipSpace cs with
  | '\x7d' :: cs => cs
  | cs => cs

/-- The remaining members of an object. -/
def readMembers {τ : Type} (fields : Fields Reader τ) : (fuel : Nat) → (first : Bool) →
    fields.Slots → Reader fields.Slots
  | 0, _, slots => return slots
  | fuel + 1, first, slots => do
      if ← Reader.plain (moreMembers first) then
        let key ← Reader.plain readString
        let here ← get
        let colon : Reader Unit := Reader.plain fun cs => do return ((), ← readColon cs)
        let slots ← fields.enter (fun read => do colon; read)
          (fun name => Trouble.mismatch (.duplicate name) (afterObject here))
          (fun slots => do colon; Reader.skip; return slots) key slots
        readMembers fields fuel false slots
      else return slots

/-- The items of an array, by position, and its end. -/
def readItems (first : Bool) : {τ : Type} → (fields : Fields Reader τ) → Reader τ
  | _, .done => Reader.plain fun cs =>
      match skipSpace cs with
      | ']' :: cs => .ok ((), cs)
      | ',' :: cs =>
          match skipSpace cs with
          | ']' :: cs => .error ⟨.trailingComma, ']' :: cs, 1⟩
          | cs => .error ⟨.trailingCharacters, cs, 1⟩
      | [] => .error ⟨.unfinishedList, [], 0⟩
      | cs => .error ⟨.trailingCharacters, cs, 1⟩
  | _, .field _ read absent rest => do
      if ← Reader.plain (moreItems first) then
        let a ← read
        return (a, ← rest.readItems false)
      else
        fun cs =>
          match (Fields.field "" read absent rest).finish Mismatch.missing (none, rest.noSlots) with
          | .ok values => .ok (values, cs)
          | .error cause => .error (.mismatch cause cs)

/-- A record under its title. -/
def read {τ : Type} (title : String) (fields : Fields Reader τ) : Reader τ := fun cs =>
  match skipSpace cs with
  | '\x7b' :: cs => do
      let (slots, rest) ← fields.readMembers (cs.length + 1) true fields.noSlots cs
      match fields.finish Mismatch.missing slots with
      | .ok values => .ok (values, rest)
      | .error cause => .error (.mismatch cause rest)
  | '[' :: cs => fields.readItems true cs
  | cs => Reader.mismatched title cs

end Fields

/-- Read a whole text with a reader. -/
def Reader.run {α : Type} (reader : Reader α) (text : String) : Except String α :=
  match reader text.toList with
  | .error trouble => .error (trouble.message text.toList)
  | .ok (a, rest) =>
      match skipSpace rest with
      | [] => .ok a
      | rest => .error ((⟨.trailingCharacters, rest, 1⟩ : Fault).locate text.toList).message

end Gazetteer.Json

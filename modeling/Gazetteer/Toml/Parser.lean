import Gazetteer.Toml.Scalar
import Gazetteer.Toml.Table

/-!
# Reading TOML

`Toml.parse` reads a document line by line into a draft; a fault is told by the place where the text stopped
making sense, or where the line starts that defines something twice.
-/

namespace Gazetteer.Toml.Parser

set_option autoImplicit false

open Step Scalar

/-- A key without dots. -/
def simpleKey : Step Key := do
  let place ← here
  let isBare (c : Char) : Bool := c.isAlphanum || c = '-' || c = '_'
  let name ← match ← next with
    | some '"' => basicString
    | some '\x27' => literalString
    | _ => String.ofList <$> run1 isBare
  return ⟨name, place⟩

/-- A key, maybe of several parts with dots between them: the parts before the last, and the last. -/
def key : Step (List Key × Key) :=
  refine (separated (do spaces; let k ← simpleKey; spaces; return k) (char '.')) fun keys =>
    keys.getLast?.map fun last => (keys.dropLast, last)

mutual

/-- A value. -/
def value : (fuel : Nat) → Step Toml
  | 0 => fail
  | fuel + 1 => do
      match ← next with
      | some '"' | some '\x27' => .string <$> Scalar.string
      | some '[' => array fuel
      | some '\x7b' => inlineTable fuel
      | some 't' => do must (exactly "true"); return .bool true
      | some 'f' => do must (exactly "false"); return .bool false
      | some 'i' => do exactly "inf"; return .real
      | some 'n' => do exactly "nan"; return .real
      | some c =>
          if c = '+' || c = '-' || isDigit c then
            (do Scalar.time; return .time) <|> (do Scalar.real; return .real) <|>
              (.integer <$> Scalar.integer)
          else fail
      | none => fail

/-- An array in brackets. -/
def array : (fuel : Nat) → Step Toml
  | 0 => fail
  | fuel + 1 => do
      char '['
      let item : Step (Nat × Toml) := do
        gap
        let place ← here
        let v ← value fuel
        gap
        return (place, v)
      let items ← separated item (char ',') <|> pure []
      if !items.isEmpty then
        let _ ← optional (char ',')
      must gap
      must (char ']')
      return .array items

/-- A table in braces. -/
def inlineTable : (fuel : Nat) → Step Toml
  | 0 => fail
  | fuel + 1 => do
      char '\x7b'
      let entry : Step (List Key × Key × Nat × Toml) := do
        let (path, k) ← key
        must (char '=')
        spaces
        let place ← here
        let v ← must (value fuel)
        spaces
        return (path, k, place, v)
      let t ← must (refine (do
        let entries ← separated entry (char ',') <|> pure []
        spaces
        return entries) inlineTable?)
      must (char '\x7d')
      return t

end

/-- A step that changes the draft; a change that is impossible is reported where the step began. -/
def change (d : Draft) {α : Type} (p : Step α) (f : α → Draft → Option Draft) : Step Draft :=
  must (refine p fun a => f a d)

/-- A key and its value on a line. -/
def assignment : Step (List Key × Key × Nat × Toml) := do
  let (path, k) ← key
  must (char '=')
  spaces
  let place ← here
  let fuel : Step Nat := fun cs => .done cs.length.succ cs
  let v ← must (value (2 * (← fuel)))
  must trailing
  return (path, k, place, v)

/-- A header between brackets. -/
def header (before after : String) : Step (Nat × List Key) := do
  let place ← here
  exactly before
  let (path, k) ← must key
  must (exactly after)
  must trailing
  return (place, path ++ [k])

/-- One line of a document. -/
def line (d : Draft) : Step Draft := do
  match ← next with
  | some '#' => do must (do comment; lineEnd); return d
  | some '[' =>
      -- a bracket at the very end of the text is no header
      let _ ← must (peek (do let _ ← any; any))
      match ← optional (peek (exactly "[[")) with
      | some () => change d (header "[[" "]]") fun (place, path) d => d.startItem path place
      | none => change d (header "[" "]") fun (place, path) d => d.startTable path place
  | some '\n' | some '\r' => do newline; return d
  | some _ => change d assignment fun (path, k, place, v) d => d.add path k place v
  | none => fail

/-- The lines of a document. -/
def lines : (fuel : Nat) → Draft → Step Draft
  | 0, d => pure d
  | fuel + 1, d => do
      spaces
      match ← optional (line d) with
      | some d => lines fuel d
      | none => return d

/-- A document. -/
def document : Step Members := do
  let _ ← optional (char '\uFEFF')
  let fuel : Step Nat := fun cs => .done cs.length.succ cs
  let d ← lines (← fuel) {}
  must atEnd
  match d.finish with
  | some members => return members
  | none => fail

end Parser

/-- Read a document, or tell where it is at fault. -/
def parse (text : String) : Except Place Toml :=
  let cs := text.toList
  match Parser.document cs with
  | .done members _ => .ok (.table .headed members)
  | .stuck rest | .broken rest => .error (Place.ofRest cs rest.length)

end Gazetteer.Toml

import Gazetteer.Json.Fields
import Gazetteer.Text.Quoted

/-!
# Reading values of a known shape

A `Decoder α` turns a JSON value into an `α` or says why the value does not have the shape it asks for.
Records are described by their `Fields`; `Fields.record` reads an object in the order of its keys, and an
array by position, and skips unknown members.
-/

namespace Gazetteer.Json

set_option autoImplicit false

/-- Why a value does not have the shape that was asked for. -/
inductive Mismatch
  | kind (found : String) (expected : String)
  | range (found : String) (expected : String)
  | length (count : Nat) (expected : String)
  | variant (name : String) (known : List String)
  | missing (field : String)
  | duplicate (field : String)
  | other (message : String)
  deriving Repr, DecidableEq

/-- A choice of names: two are joined by `or`, more are listed. -/
def oneOf (known : List String) : String :=
  let ticked := known.map fun name => "`" ++ name ++ "`"
  match ticked with
  | [] => "there are no variants"
  | [a] => "expected " ++ a
  | [a, b] => s!"expected {a} or {b}"
  | _ => "expected one of " ++ String.intercalate ", " ticked

/-- How the mismatch reads. -/
def Mismatch.message : Mismatch → String
  | .kind found expected => s!"invalid type: {found}, expected {expected}"
  | .range found expected => s!"invalid value: {found}, expected {expected}"
  | .length count expected => s!"invalid length {count}, expected {expected}"
  | .variant name known => s!"unknown variant `{name}`, " ++ oneOf known
  | .missing field => s!"missing field `{field}`"
  | .duplicate field => s!"duplicate field `{field}`"
  | .other message => message

/-- What a number is called in a mismatch. -/
def numberKind : Number → String
  | .integer n => s!"integer `{n}`"
  | .real bits => s!"floating point `{Number.layout.renderBits bits}`"

/-- What a value is called in a mismatch. -/
def kindOf : Json → String
  | .null => "null"
  | .bool b => s!"boolean `{b}`"
  | .number n => numberKind n
  | .string s => "string " ++ Text.quoted s
  | .array _ => "sequence"
  | .object _ => "map"

/-- Reads a value of a known shape. -/
abbrev Decoder (α : Type) := Json → Except Mismatch α

namespace Decoder

/-- Any text. -/
def text : Decoder String
  | .string s => .ok s
  | v => .error (.kind (kindOf v) "a string")

/-- A truth value. -/
def flag : Decoder Bool
  | .bool b => .ok b
  | v => .error (.kind (kindOf v) "a boolean")

/-- An integer that is not negative and below a bound, under the name of its kind. -/
def natural (bound : Nat) (name : String) : Decoder Nat
  | .number (.integer n) =>
      if 0 ≤ n && n < bound then .ok n.toNat
      else .error (.range (numberKind (.integer n)) name)
  | v => .error (.kind (kindOf v) name)

/-- An integer of 32 bits. -/
def word : Decoder Nat := natural UInt32.size "u32"

/-- An integer of 64 bits. -/
def longWord : Decoder UInt64 := fun v => (natural UInt64.size "u64" v).map .ofNat

/-- A number of things. -/
def count : Decoder Nat := natural UInt64.size "usize"

/-- A value that may be `null`. -/
def optional {α : Type} (read : Decoder α) : Decoder (Option α)
  | .null => .ok none
  | v => (read v).map some

/-- An array. -/
def list {α : Type} (read : Decoder α) : Decoder (List α)
  | .array items => items.mapM read
  | v => .error (.kind (kindOf v) "a sequence")

/-- An object with keys of any name. -/
def mapping {α : Type} (read : Decoder α) : Decoder (SortedMap String α)
  | .object members => do
      let pairs ← members.mapM fun (key, value) => do return (key, ← read value)
      return SortedMap.ofList pairs
  | v => .error (.kind (kindOf v) "a map")

/-- One of some names, alone or as the only key of an object that holds nothing. -/
def choice {α : Type} (names : List (String × α)) : Decoder α
  | .string s => find s
  | .object [(key, value)] => do
      let a ← find key
      match value with
      | .null => return a
      | v => .error (.kind (kindOf v) "unit")
  | .object _ => .error (.range "map" "map with a single key")
  | v => .error (.kind (kindOf v) "string or map")
where
  find (s : String) : Except Mismatch α :=
    match names.lookup s with
    | some a => .ok a
    | none => .error (.variant s (names.map (·.1)))

end Decoder

namespace Fields

/-- The members of an object, in the order of their keys. -/
def ofMembers {τ : Type} (fields : Fields Decoder τ) (members : List (String × Json)) :
    Except Mismatch τ := do
  let slots ← members.foldlM (fun slots (key, value) =>
    fields.enter (fun read => read value) .duplicate (pure ·) key slots) fields.noSlots
  fields.finish .missing slots

/-- The items of an array, the first `index` of which have been used. -/
def ofItems (title : String) (total index : Nat) :
    {τ : Type} → (fields : Fields Decoder τ) → List Json → Except Mismatch τ
  | _, .done, [] => .ok ()
  | _, .done, items => .error (.length (index + items.length) "fewer elements in array")
  | _, .field _ _ absent rest, [] => do
      match absent with
      | .default a => return (a, ← rest.ofItems title total (index + 1) [])
      | _ => .error (.length index s!"{title} with {total} elements")
  | _, .field _ read _ rest, item :: items => do
      let a ← read item
      return (a, ← rest.ofItems title total (index + 1) items)

/-- A record under its title. -/
def record {τ : Type} (title : String) (fields : Fields Decoder τ) : Decoder τ
  | .object members => fields.ofMembers members
  | .array items => fields.ofItems title fields.size 0 items
  | v => .error (.kind (kindOf v) title)

end Fields

end Gazetteer.Json

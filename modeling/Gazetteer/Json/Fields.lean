import Gazetteer.Json.Basic

/-!
# The fields of a record

`Fields ρ τ` lists the fields of a record in the order of their declaration: each has a name, a reader of its
values (`ρ α` for a field of type `α`) and what it is worth when it is absent.  `τ` is the tuple of the values.
`Fields.enter` handles one member of an object, `Fields.finish` what is left open at its end.
-/

namespace Gazetteer.Json

set_option autoImplicit false

/-- What a field is worth when it is absent. -/
inductive Absent (α : Type)
  /-- It is an error. -/
  | required
  /-- An object may leave it out. -/
  | optional (a : α)
  /-- An object may leave it out, and an array may end before it. -/
  | default (a : α)

/-- The fields of a record in the order of their declaration. -/
inductive Fields (ρ : Type → Type) : Type → Type 1
  | done : Fields ρ Unit
  | field {α τ : Type} (name : String) (read : ρ α) (absent : Absent α) (rest : Fields ρ τ) :
      Fields ρ (α × τ)

namespace Fields

variable {ρ : Type → Type}

/-- The values of the fields met so far. -/
def Slots : {τ : Type} → Fields ρ τ → Type
  | _, .done => Unit
  | _, .field (α := α) _ _ _ rest => Option α × rest.Slots

/-- No field met yet. -/
def noSlots : {τ : Type} → (fields : Fields ρ τ) → fields.Slots
  | _, .done => ()
  | _, .field _ _ _ rest => (none, rest.noSlots)

/-- Number of fields. -/
def size : {τ : Type} → Fields ρ τ → Nat
  | _, .done => 0
  | _, .field _ _ _ rest => rest.size + 1

/-- Enter a member: read its value into the slot of its field. A field met before is an error, and a key
that names no field is left to `skip`. -/
def enter {m : Type → Type} {ε : Type} [Monad m] [MonadExcept ε m]
    (run : {α : Type} → ρ α → m α) (duplicate : String → ε)
    (skip : {σ : Type} → σ → m σ) (key : String) :
    {τ : Type} → (fields : Fields ρ τ) → fields.Slots → m fields.Slots
  | _, .done, slots => skip slots
  | _, .field name read _ rest, slots =>
      if key = name then
        match slots.1 with
        | some _ => throw (duplicate name)
        | none => do return (some (← run read), slots.2)
      else do return (slots.1, ← rest.enter run duplicate skip key slots.2)

/-- The values of all fields once every member has been entered. -/
def finish {ε : Type} (missing : String → ε) :
    {τ : Type} → (fields : Fields ρ τ) → fields.Slots → Except ε τ
  | _, .done, _ => .ok ()
  | _, .field name _ absent rest, slots => do
      let a ← match slots.1, absent with
        | some a, _ => .ok a
        | none, .required => .error (missing name)
        | none, .optional a => .ok a
        | none, .default a => .ok a
      return (a, ← rest.finish missing slots.2)

end Fields

end Gazetteer.Json

import Gazetteer.Text.Blank

/-!
# Reading steps

A step reads something from the front of a text.  It may be stuck, so that another step can be tried at the same
place, or the text may be broken, which ends the reading; both tell the text that was left.
-/

namespace Gazetteer.Toml

set_option autoImplicit false

/-- How a step ended. -/
inductive Reply (α : Type)
  | done (a : α) (rest : List Char)
  /-- Something else may fit. -/
  | stuck (rest : List Char)
  /-- Nothing can fit. -/
  | broken (rest : List Char)

/-- Reads something from the front of a text. -/
def Step (α : Type) := List Char → Reply α

namespace Step

variable {α β : Type}

instance : Monad Step where
  pure a := fun cs => .done a cs
  bind p f := fun cs =>
    match p cs with
    | .done a rest => f a rest
    | .stuck rest => .stuck rest
    | .broken rest => .broken rest

/-- The first step, or the second at the same place. -/
def orElse (p : Step α) (q : Unit → Step α) : Step α := fun cs =>
  match p cs with
  | .stuck _ => q () cs
  | r => r

instance : OrElse (Step α) := ⟨orElse⟩

/-- Nothing fits. -/
def fail : Step α := fun cs => .stuck cs

/-- A step that has to succeed. -/
def must (p : Step α) : Step α := fun cs =>
  match p cs with
  | .stuck rest => .broken rest
  | r => r

/-- A step, or nothing. -/
def optional (p : Step α) : Step (Option α) := fun cs =>
  match p cs with
  | .done a rest => .done (some a) rest
  | .stuck _ => .done none cs
  | .broken rest => .broken rest

/-- A step whose result is then judged; one that is refused counts as not read. -/
def refine (p : Step α) (f : α → Option β) : Step β := fun cs =>
  match p cs with
  | .done a rest =>
      match f a with
      | some b => .done b rest
      | none => .stuck cs
  | .stuck rest => .stuck rest
  | .broken rest => .broken rest

/-- Test what follows without reading it. -/
def peek (p : Step α) : Step α := fun cs =>
  match p cs with
  | .done a _ => .done a cs
  | .stuck _ => .stuck cs
  | .broken _ => .broken cs

/-- The place of what follows. -/
def here : Step Nat := fun cs => .done cs.length cs

/-- The next character, unread. -/
def next : Step (Option Char) := fun cs => .done cs.head? cs

/-- Any character. -/
def any : Step Char
  | c :: cs => .done c cs
  | [] => .stuck []

/-- A character of a class. -/
def one (p : Char → Bool) : Step Char
  | c :: cs => if p c then .done c cs else .stuck (c :: cs)
  | [] => .stuck []

/-- A given character. -/
def char (c : Char) : Step Unit := do let _ ← one (· = c)

/-- Given characters. -/
def exactly (s : String) : Step Unit := fun cs =>
  match Text.after? s.toList cs with
  | some rest => .done () rest
  | none => .stuck cs

/-- All characters of a class that follow. -/
def run (p : Char → Bool) : Step (List Char) := fun cs =>
  let taken := cs.takeWhile p
  .done taken (cs.drop taken.length)

/-- At least one character of a class. -/
def run1 (p : Char → Bool) : Step (List Char) := do
  let c ← one p
  return c :: (← run p)

/-- As often as possible. -/
def many (p : Step α) : (fuel : Nat) → Step (List α)
  | 0 => pure []
  | fuel + 1 => fun cs =>
      match p cs with
      | .done a rest =>
          if rest.length < cs.length then
            match many p fuel rest with
            | .done more last => .done (a :: more) last
            | .stuck last => .stuck last
            | .broken last => .broken last
          else .done [] cs
      | .stuck _ => .done [] cs
      | .broken rest => .broken rest

/-- As often as possible, up to the end of the text. -/
def all (p : Step α) : Step (List α) := fun cs => many p cs.length.succ cs

/-- At least one item, separated by a step; a separator that no item follows is left. -/
def separated (item : Step α) (separator : Step Unit) : Step (List α) := do
  let a ← item
  return a :: (← all (do separator; item))

end Step

end Gazetteer.Toml

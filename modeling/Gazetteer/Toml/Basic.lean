import Gazetteer.Text.Blank

/-!
# TOML values

A table remembers how it came about, because that decides what may still be added to it, and every member where
its value stands, so that a value of the wrong kind can be reported.  A place is told by the number of characters
behind it; `Place.ofRest` turns that into a line and a column.
-/

namespace Gazetteer

set_option autoImplicit false

namespace Toml

/-- How a table came about. -/
inductive Form
  /-- It is written in braces, and complete. -/
  | inline
  /-- It has a header of its own, or is the document. -/
  | headed
  /-- Only tables in it have headers. -/
  | implied
  /-- Dotted keys name it. -/
  | dotted
  deriving Repr, DecidableEq

end Toml

/-- A TOML value. Values that only need to be well formed carry nothing. -/
inductive Toml
  | string (s : String)
  | integer (n : Int)
  | real
  | bool (b : Bool)
  | time
  /-- An array in brackets; each item with its place. -/
  | array (items : List (Nat × Toml))
  /-- The tables under headers in double brackets; each with the place of its header. -/
  | tables (items : List (Nat × Toml))
  /-- A table; each member with its key and the place of its value. -/
  | table (form : Toml.Form) (members : List (String × Nat × Toml))
  deriving Repr, Inhabited

namespace Toml

/-- The members of a table in the order of their definition. -/
abbrev Members := List (String × Nat × Toml)

/-- The members of a table. -/
def members? : Toml → Option Members
  | .table _ members => some members
  | _ => none

/-- The member of a table with this key. -/
def get? (key : String) (t : Toml) : Option Toml :=
  (t.members?.bind fun members => members.lookup key).map (·.2)

/-- A text, if the value is one. -/
def string? : Toml → Option String
  | .string s => some s
  | _ => none

/-- A line and a column, both counted from one. -/
structure Place where
  line : Nat
  column : Nat
  deriving Repr, DecidableEq

namespace Place

/-- The place behind some text, given in reverse. -/
def behind (before : List Char) : Place :=
  ⟨before.count '\n' + 1, (before.takeWhile (· != '\n')).length + 1⟩

/-- The place in a text in front of its last `rest` characters. The end of a text lies on its last line, also
behind a line break. -/
def ofRest (text : List Char) (rest : Nat) : Place :=
  if rest = 0 then
    match text.reverse with
    | [] => behind []
    | _ :: before => let p := behind before; ⟨p.line, p.column + 1⟩
  else behind (text.take (text.length - rest)).reverse

/-- How a fault at a place reads. -/
def fault (p : Place) : String := s!"TOML parse error at line {p.line}, column {p.column}"

end Place

end Toml

end Gazetteer

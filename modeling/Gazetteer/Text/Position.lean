import Gazetteer.Text.Blank

/-!
# Positions in a text

A position is a line, counted from one, and a column in bytes.  `Position.atByte` finds the position that
lies after a number of bytes: a line ends with its newline, so right after a newline the column is zero.
-/

namespace Gazetteer.Text

set_option autoImplicit false

/-- A line, counted from one, and the number of bytes before the position in that line. -/
structure Position where
  line : Nat
  column : Nat
  deriving Repr, DecidableEq

namespace Position

/-- The first position of a text. -/
def start : Position := ⟨1, 0⟩

/-- The position `count` bytes further on. -/
def advance (p : Position) : Nat → List Char → Position
  | 0, _ => p
  | _ + 1, [] => p
  | count + 1, c :: cs =>
      if c = '\n' then advance ⟨p.line + 1, 0⟩ count cs
      else
        let size := min c.utf8Size (count + 1)
        advance ⟨p.line, p.column + size⟩ (count + 1 - size) cs
  termination_by _ cs => cs.length

/-- The position after the first `count` bytes of a text. -/
def atByte (text : List Char) (count : Nat) : Position := start.advance count text

/-- The position `ahead` bytes behind the start of `rest`, a suffix of the text. -/
def before (text rest : List Char) (ahead : Nat) : Position :=
  atByte text (byteLength text - byteLength rest + min ahead (byteLength rest))

end Position

end Gazetteer.Text

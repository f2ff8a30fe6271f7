import Gazetteer.Text.Blank

/-!
# Glob patterns

A pattern is a list of tokens.  Two stars that stand alone between slashes cross folders; braces hold alternatives,
which may nest; brackets hold characters and ranges of them; a backslash takes away a character's meaning.
-/

namespace Gazetteer.Glob

set_option autoImplicit false

/-- A part of a pattern. -/
inductive Token
  | char (c : Char)
  /-- One of any characters. -/
  | any
  /-- Any number of characters. -/
  | many
  /-- Any folders in front of a name, or none. -/
  | leadingFolders
  /-- Everything below a folder. -/
  | inside
  /-- A slash, or any folders between two slashes. -/
  | betweenFolders
  | oneOf (negated : Bool) (ranges : List (Char × Char))
  | alternatives (branches : List (List Token))
  deriving Repr, Inhabited

/-- What is wrong with a text that is no pattern. -/
inductive Fault
  | unclosedClass
  | invalidRange (low high : Char)
  | unopenedAlternatives
  | unclosedAlternatives
  | danglingEscape
  deriving Repr, DecidableEq

/-- How the fault reads. -/
def Fault.message : Fault → String
  | .unclosedClass => "unclosed character class; missing ']'"
  | .invalidRange low high => "invalid range; '" ++ low.toString ++ "' > '" ++ high.toString ++ "'"
  | .unopenedAlternatives =>
      "unopened alternate group; missing '\x7b' (maybe escape '\x7d' with '[\x7d]'?)"
  | .unclosedAlternatives =>
      "unclosed alternate group; missing '\x7d' (maybe escape '\x7b' with '[\x7b]'?)"
  | .danglingEscape => "dangling '\\'"

/-- What is read so far: the groups that are open, the innermost first, each with its complete branches and the
branch at hand, all in reverse. The outermost has no complete branches. -/
structure Draft where
  outer : List (List (List Token) × List Token) := []
  branches : List (List Token) := []
  tokens : List Token := []
  /-- The character before. -/
  previous : Option Char := none
  /-- Whether brackets have lost their meaning. -/
  plainBrackets : Bool := false

namespace Draft

/-- Add a token. -/
def push (d : Draft) (t : Token) : Draft := { d with tokens := t :: d.tokens }

/-- Whether a group of alternatives is open. -/
def inGroup (d : Draft) : Bool := !d.outer.isEmpty

/-- Two stars, and how much of the text behind them belongs to them. -/
def pushStars (d : Draft) (rest : List Char) : Draft × List Char :=
  let plain := ((d.push .many).push .many, rest)
  let atSlash := rest.head? = some '/'
  match d.tokens with
  | [] => if rest.isEmpty || atSlash then (d.push .leadingFolders, rest.drop 1) else plain
  | last :: before =>
      let opens := d.previous = some '/' ||
        (d.inGroup && (d.previous = some ',' || d.previous = some '\x7b'))
      let ends := match rest.head? with
        | none => true
        | some c => d.inGroup && (c = ',' || c = '\x7d')
      if !opens || !(ends || atSlash) then plain
      else
        let rest := if ends then rest else rest.drop 1
        match last with
        | .leadingFolders | .inside => (d, rest)
        | _ => ({ d with tokens := (if ends then .inside else .betweenFolders) :: before }, rest)

end Draft

/-- Extend the last range of a class. -/
def extendRange (high : Char) : List (Char × Char) → Except Fault (List (Char × Char))
  | [] => .ok []
  | (low, _) :: ranges =>
      if high < low then .error (.invalidRange low high) else .ok ((low, high) :: ranges)

/-- The rest of a character class; ranges are in reverse. Nothing if it is not closed. -/
def readClass (negated : Bool) : (isFirst inRange : Bool) → List (Char × Char) → List Char →
    Except Fault (Option (Token × List Char))
  | _, _, _, [] => .ok none
  | isFirst, inRange, ranges, c :: cs =>
      if c = ']' && !isFirst then
        let ranges := if inRange then ('-', '-') :: ranges else ranges
        .ok (some (.oneOf negated ranges.reverse, cs))
      else if inRange then do readClass negated false false (← extendRange c ranges) cs
      else if c = '-' && !isFirst then readClass negated false true ranges cs
      else readClass negated false false ((c, c) :: ranges) cs

/-- Read one part of a pattern. An unclosed class is an error unless brackets may stand for themselves. -/
def readToken (lenient : Bool) (d : Draft) (c : Char) (cs : List Char) :
    Except Fault (Draft × List Char) :=
  match c, cs with
  | '?', cs => .ok (d.push .any, cs)
  | '*', '*' :: cs => .ok (d.pushStars cs)
  | '*', cs => .ok (d.push .many, cs)
  | '\x7b', cs =>
      .ok ({ d with outer := (d.branches, d.tokens) :: d.outer, branches := [], tokens := [] }, cs)
  | '\x7d', cs =>
      match d.outer with
      | [] => .error .unopenedAlternatives
      | (branches, tokens) :: outer =>
          let group := (d.tokens.reverse :: d.branches).reverse
          .ok ({ d with outer, branches, tokens := .alternatives group :: tokens }, cs)
  | ',', cs =>
      if d.inGroup then
        .ok ({ d with branches := d.tokens.reverse :: d.branches, tokens := [] }, cs)
      else .ok (d.push (.char ','), cs)
  | '\\', [] => .error .danglingEscape
  | '\\', c :: cs => .ok (d.push (.char c), cs)
  | '[', cs =>
      if d.plainBrackets then .ok (d.push (.char '['), cs)
      else do
        let (negated, inner) := match cs with
          | '!' :: cs => (true, cs)
          | '^' :: cs => (true, cs)
          | cs => (false, cs)
        match ← readClass negated true false [] inner with
        | some (t, rest) => return (d.push t, rest)
        | none =>
            if lenient then return ({ d.push (.char '[') with plainBrackets := true }, cs)
            else .error .unclosedClass
  | c, cs => .ok (d.push (.char c), cs)

/-- Read the parts of a pattern. -/
def readTokens (lenient : Bool) : (fuel : Nat) → Draft → List Char → Except Fault Draft
  | 0, d, _ => .ok d
  | _, d, [] => .ok d
  | fuel + 1, d, c :: cs => do
      let (d, rest) ← readToken lenient d c cs
      let used := (c :: cs).take (cs.length + 1 - rest.length)
      readTokens lenient fuel { d with previous := used.getLast? } rest

/-- Read a pattern. -/
def parse (lenient : Bool) (text : String) : Except Fault (List Token) := do
  let d ← readTokens lenient text.length {} text.toList
  if d.inGroup then .error .unclosedAlternatives else return d.tokens.reverse

end Gazetteer.Glob

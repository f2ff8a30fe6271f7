import Std.Data.HashMap
import Gazetteer.Syntax.Semicolon
import Gazetteer.Syntax.Tree

/-!
# Grammar rules

A grammar is data: a `Rule` for every phrase, read by `Rule.run` with ordered choice, that is, the first
alternative that matches is taken.  Trees are built as the rules match: `node` gathers what a rule matched
under a kind, and `grow` wraps a tree into larger ones as long as something that continues it follows, which
is how calls, member accesses and operators nest to the left.  Comments in front of a tree stay outside it.
What a phrase matched at a place is remembered, so no text is read twice for the same phrase.
-/

namespace Gazetteer.Syntax

set_option autoImplicit false

/-- The phrases of the grammar. The flag of a phrase says that a statement may end, without a semicolon,
where the phrase ends. -/
inductive Phrase
  | statement
  | declaration
  | block
  | expression (ends : Bool)
  | expressions (ends : Bool)
  | unary (ends : Bool)
  | chain (ends : Bool)
  | primary (ends : Bool)
  | arrow (ends : Bool)
  | newExpression
  | parenthesized
  | object
  | array
  | arguments
  | template
  | classExpression
  | classTail
  | classBody
  | classMember
  | pattern
  | destructuring
  | assignmentPattern
  | parameters
  | signature (ends : Bool)
  | declarator
  | decorators
  | type (ends : Bool)
  | typeUnion (ends : Bool)
  | typeOperand (ends : Bool)
  | typePrimary (ends : Bool)
  | typeArguments
  | typeParameters
  | typeClause (ends : Bool)
  | returnClause (ends : Bool)
  | objectType
  | markup
  | tagAttribute
  deriving Repr, DecidableEq, Hashable

/-- A way to match text and build trees from it. -/
inductive Rule
  /-- Nothing. -/
  | nothing
  /-- A token, behind blanks and comments. -/
  | token (kind : Kind) (scan : Scanner)
  /-- A token right here. -/
  | rawToken (kind : Kind) (scan : Scanner)
  | both (a b : Rule)
  | either (a b : Rule)
  /-- As often as possible. -/
  | many (a : Rule)
  | node (kind : Kind) (a : Rule)
  | role (r : Role) (a : Rule)
  | phrase (s : Phrase)
  /-- Nothing, if the text ahead passes a test. -/
  | test (p : List Char → Bool)
  /-- Nothing, if the rule matches here. -/
  | ahead (a : Rule)
  /-- Nothing, if the rule does not match here. -/
  | absent (a : Rule)
  /-- A rule whose last tree must be of certain kinds. -/
  | only (p : Kind → Bool) (a : Rule)
  /-- A rule whose last tree is then wrapped by a second rule, again and again. -/
  | grow (base step : Rule)
  /-- Wrap the tree at hand, if its kind passes a test, together with what a rule matches. -/
  | wrap (p : Kind → Bool) (kind : Kind) (r : Option Role) (a : Rule)
  /-- Comments in the markup style. -/
  | markupComments

namespace Rule

/-- Rules one after the other. -/
def all : List Rule → Rule
  | [] => .nothing
  | [a] => a
  | a :: as => .both a (all as)

/-- The first of some rules that matches. -/
def any : List Rule → Rule
  | [] => .absent .nothing
  | [a] => a
  | a :: as => .either a (any as)

/-- A rule or nothing. -/
def opt (a : Rule) : Rule := .either a .nothing

/-- At least one item, separated by a rule. -/
def separated (separator item : Rule) : Rule := .both item (.many (.both separator item))

end Rule

/-- A place in a text. -/
structure Cursor where
  rest : List Char
  /-- Number of characters before it. -/
  offset : Nat
  /-- Number of line breaks before it. -/
  row : Nat
  deriving Inhabited

namespace Cursor

/-- The place a number of characters further on, and these characters. -/
def take (c : Cursor) (n : Nat) : String × Cursor :=
  let taken := c.rest.take n
  (String.ofList taken, ⟨c.rest.drop n, c.offset + taken.length, c.row + taken.count '\n'⟩)

/-- Skip blanks. -/
def skipGap (c : Cursor) : String × Cursor := c.take (c.rest.takeWhile Scanner.isGap).length

/-- A token at a place, with the blanks that were skipped before it. -/
def leaf (c : Cursor) (kind : Kind) (lead : String) (length : Nat) : Tree × Cursor :=
  let (text, next) := c.take length
  (.leaf { kind, row := c.row } lead text, next)

/-- The comments that follow, and the place behind the last of them. -/
def skipComments (c : Cursor) : (fuel : Nat) → List Tree × Cursor
  | 0 => ([], c)
  | fuel + 1 =>
      let (lead, here) := c.skipGap
      match Scanner.comment here.rest with
      | some n =>
          let (t, next) := here.leaf .comment lead n
          let (ts, last) := skipComments next fuel
          (t :: ts, last)
      | none => ([], c)

/-- The comments in the markup style that follow. -/
def skipMarkup (c : Cursor) : (fuel : Nat) → List Tree × Cursor
  | 0 => ([], c)
  | fuel + 1 =>
      let (before, c') := c.skipComments c.rest.length.succ
      let (lead, here) := c'.skipGap
      match Scanner.markupComment here.rest with
      | some n =>
          let (t, next) := here.leaf .other lead n
          let (ts, last) := skipMarkup next fuel
          (before ++ t :: ts, last)
      | none => ([], c)

end Cursor

/-- What a rule matched: the trees, and the place behind them. -/
abbrev Match := Option (List Tree × Cursor)

/-- What is remembered while a text is read: the matches of phrases by their place, and the furthest place
where a token was looked for in vain, with its row. -/
structure Progress where
  known : Std.HashMap (Phrase × Nat) Match := ∅
  furthest : Nat := 0
  row : Nat := 0

/-- A reading step. -/
abbrev Reading := StateM Progress

/-- Note that no token was found at a place. -/
def Progress.note (here : Cursor) (p : Progress) : Progress :=
  if p.furthest ≤ here.offset then { p with furthest := here.offset, row := here.row } else p

/-- The row on which a tree starts. -/
def startRow (c : Cursor) : List Tree → Nat
  | t :: _ => t.label.row
  | [] => c.row

/-- Change the last of some trees. -/
def mapLast (f : Tree → Tree) : List Tree → List Tree
  | [] => []
  | [t] => [f t]
  | t :: ts => t :: mapLast f ts

namespace Rule

/-- Match a rule at a place. `held` is the tree that a step of `grow` may wrap. -/
def run (grammar : Phrase → Rule) : (fuel : Nat) → Rule → Option Tree → Cursor → Reading Match
  | 0, _, _, _ => return none
  | fuel + 1, rule, held, c =>
      match rule with
      | .nothing => return some ([], c)
      | .token kind scan => do
          let (comments, c') := c.skipComments c.rest.length.succ
          let (lead, here) := c'.skipGap
          match scan here.rest with
          | some n =>
              let (t, next) := here.leaf kind lead n
              return some (comments ++ [t], next)
          | none =>
              modify (Progress.note here)
              return none
      | .rawToken kind scan => do
          match scan c.rest with
          | some n =>
              let (t, next) := c.leaf kind "" n
              return some ([t], next)
          | none =>
              modify (Progress.note c)
              return none
      | .both a b => do
          match ← run grammar fuel a held c with
          | none => return none
          | some (ts, c) =>
              match ← run grammar fuel b held c with
              | none => return none
              | some (us, c) => return some (ts ++ us, c)
      | .either a b => do
          match ← run grammar fuel a held c with
          | some m => return some m
          | none => run grammar fuel b held c
      | .many a => do
          match ← run grammar fuel a held c with
          | none => return some ([], c)
          | some (ts, next) =>
              if next.offset = c.offset then return some ([], c)
              else
                match ← run grammar fuel (.many a) held next with
                | none => return some (ts, next)
                | some (us, last) => return some (ts ++ us, last)
      | .node kind a => do
          let (comments, here) := c.skipComments c.rest.length.succ
          match ← run grammar fuel a none here with
          | none => return none
          | some (ts, next) =>
              return some (comments ++ [.node { kind, row := startRow here ts } ts], next)
      | .role r a => do
          match ← run grammar fuel a held c with
          | none => return none
          | some (ts, next) => return some (mapLast (Tree.withRole r) ts, next)
      | .phrase s => do
          match (← get).known[(s, c.offset)]? with
          | some m => return m
          | none =>
              let m ← run grammar fuel (grammar s) none c
              modify fun p => { p with known := p.known.insert (s, c.offset) m }
              return m
      | .test p => return if p c.rest then some ([], c) else none
      | .ahead a => do
          match ← run grammar fuel a held c with
          | none => return none
          | some _ => return some ([], c)
      | .absent a => do
          let before ← get
          let m ← run grammar fuel a held c
          modify fun p => { before with known := p.known }
          match m with
          | none => return some ([], c)
          | some _ => return none
      | .only p a => do
          match ← run grammar fuel a held c with
          | none => return none
          | some (ts, next) =>
              match ts.getLast? with
              | some t => return if p t.kind then some (ts, next) else none
              | none => return none
      | .grow base step => do
          match ← run grammar fuel base none c with
          | none => return none
          | some (ts, next) =>
              match ts.getLast? with
              | none => return some (ts, next)
              | some t =>
                  let (t, last) ← extend grammar fuel step t next
                  return some (ts.dropLast ++ [t], last)
      | .wrap p kind r a =>
          match held with
          | none => return none
          | some t =>
              if p t.kind then do
                match ← run grammar fuel a none c with
                | none => return none
                | some (ts, next) =>
                    let t' := match r with
                      | some r => t.withRole r
                      | none => t
                    return some ([.node { kind, row := t.label.row } (t' :: ts)], next)
              else return none
      | .markupComments =>
          return some (c.skipMarkup c.rest.length.succ)
where
  /-- Wrap a tree as often as a step matches. -/
  extend (grammar : Phrase → Rule) : (fuel : Nat) → Rule → Tree → Cursor → Reading (Tree × Cursor)
  | 0, _, t, c => return (t, c)
  | fuel + 1, step, t, c => do
      match ← run grammar fuel step (some t) c with
      | some ([t'], next) => extend grammar fuel step t' next
      | _ => return (t, c)

end Rule

end Gazetteer.Syntax

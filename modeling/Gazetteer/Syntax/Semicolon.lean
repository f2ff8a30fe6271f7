import Gazetteer.Syntax.Lexeme

/-!
# Statements without a semicolon

A statement may end at a line break, at a closing brace or at the end of the text, unless what follows the line
break continues it.  What counts as a continuation differs a little between plain and typed source.
-/

namespace Gazetteer.Syntax

set_option autoImplicit false

/-- The languages that are read. -/
inductive Dialect
  | javaScript
  | typeScript
  | tsx
  deriving Repr, DecidableEq, Hashable

namespace Dialect

/-- Whether the language has types. -/
def isTyped : Dialect → Bool
  | .javaScript => false
  | .typeScript | .tsx => true

/-- Whether the language has tags in expressions. -/
def hasTags : Dialect → Bool
  | .typeScript => false
  | .javaScript | .tsx => true

end Dialect

namespace Semicolon

/-- An ASCII blank. -/
def isBlank (c : Char) : Bool := c = ' ' || ('\t' ≤ c && c ≤ '\r')

/-- An ASCII letter. -/
def isLetter (c : Char) : Bool := ('a' ≤ c && c ≤ 'z') || ('A' ≤ c && c ≤ 'Z')

/-- A line break. -/
def isBreak (c : Char) : Bool := c = '\n' || c = '\u2028' || c = '\u2029'

/-- What blanks and comments lead to. -/
inductive Gap
  /-- A slash that starts no comment. -/
  | blocked
  /-- The end of a comment without a line break in it. -/
  | sameLine (rest : List Char)
  /-- Something else. -/
  | passed (rest : List Char)

/-- Skip a comment between stars: whether it holds a line break, and what follows it. -/
def skipBlock (broken : Bool) : List Char → Bool × List Char
  | [] => (broken, [])
  | '*' :: '/' :: cs => (broken, cs)
  | c :: cs => skipBlock (broken || isBreak c) cs

/-- Skip blanks and comments; unless all are to be skipped, stop behind a comment between stars that no
slash follows. -/
def skipGap (all : Bool) : (fuel : Nat) → (broken : Bool) → List Char → Gap
  | 0, _, cs => .passed cs
  | fuel + 1, broken, cs =>
      match cs.dropWhile isBlank with
      | '/' :: '/' :: cs => skipGap all fuel broken (cs.dropWhile fun c => !isBreak c)
      | '/' :: '*' :: cs =>
          let (broken, rest) := skipBlock broken cs
          if all || rest.head? = some '/' || rest.isEmpty then skipGap all fuel broken rest
          else if broken then .passed rest
          else .sameLine rest
      | '/' :: _ => .blocked
      | cs => .passed cs

/-- Whether a word that starts with `i` is no operator. -/
def noOperatorWord (cs : List Char) : Bool :=
  match cs with
  | 'i' :: 'n' :: cs =>
      match cs with
      | c :: _ =>
          if !isLetter c then false
          else if "stanceof".toList.isPrefixOf cs then
            match cs.drop 8 with
            | c :: _ => isLetter c
            | [] => false
          else true
      | [] => false
  | _ => true

/-- Whether what follows a line break starts a new statement. `afterExpression` says that an operator could
follow here. -/
def startsAnew (d : Dialect) (afterExpression : Bool) (cs : List Char) : Bool :=
  match cs with
  | [] => true
  | c :: rest =>
      let next := rest.head?.getD '\x00'
      if "`,:;*%><=?^|&/".toList.contains c then false
      else if c = '[' || c = '(' then d.isTyped && !afterExpression
      else if c = '.' then !d.isTyped && Scanner.isDigit next
      else if c = '+' then next = '+'
      else if c = '-' then next = '-'
      else if c = '!' then next != '='
      else if c = 'i' then noOperatorWord cs
      else true

/-- Whether a statement may end in front of a text, in typed source. -/
def endsTyped (d : Dialect) (afterExpression : Bool) (cs : List Char) : Bool :=
  match cs.dropWhile fun c => isBlank c && c != '\n' with
  | [] => true
  | '\x7d' :: rest =>
      match rest.dropWhile isBlank with
      | ':' :: _ => afterExpression
      | _ => true
  | '\n' :: rest =>
      match skipGap true rest.length.succ false rest with
      | .passed rest | .sameLine rest => startsAnew d afterExpression rest
      | .blocked => false
  | c :: _ => c = '\x00'

/-- Whether a statement may end in front of a text, in plain source. -/
def endsPlain (d : Dialect) (afterExpression : Bool) : (fuel : Nat) → List Char → Bool
  | 0, _ => false
  | _, [] => true
  | fuel + 1, c :: cs =>
      if c = '\x00' || c = '\x7d' then true
      else if c = '/' then
        match skipGap false cs.length.succ false (c :: cs) with
        | .blocked => false
        | .sameLine rest =>
            match rest with
            | [] => true
            | '/' :: _ => false
            | _ => endsPlain d afterExpression fuel rest
        | .passed rest =>
            let next := rest.head?.getD '\x00'
            if !afterExpression && next != ',' && next != '=' then true
            else
              match rest with
              | [] => false
              | '\x7d' :: _ => true
              | _ => false
      else if isBreak c then
        match skipGap true cs.length.succ false cs with
        | .passed rest | .sameLine rest => startsAnew d afterExpression rest
        | .blocked => false
      else if isBlank c then endsPlain d afterExpression fuel cs
      else false

/-- Whether a statement may end right in front of a text. -/
def endsAt (d : Dialect) (afterExpression : Bool) (cs : List Char) : Bool :=
  if d.isTyped then endsTyped d afterExpression cs
  else endsPlain d afterExpression cs.length.succ cs

/-- Whether a statement ends in front of a text or behind comments that follow directly. -/
def endsSoon (d : Dialect) (afterExpression : Bool) : (fuel : Nat) → List Char → Bool
  | 0, _ => false
  | fuel + 1, cs =>
      endsAt d afterExpression cs ||
        (let rest := cs.dropWhile Scanner.isGap
         match Scanner.comment rest with
         | some n => endsSoon d afterExpression fuel (rest.drop n)
         | none => false)

end Semicolon

end Gazetteer.Syntax

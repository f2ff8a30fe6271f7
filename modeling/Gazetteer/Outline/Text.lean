import Gazetteer.Record.Symbol
import Gazetteer.Syntax.Tree
import Gazetteer.Text.Blank

/-!
# What the text of a tree says

The head of a declaration is its text from the first token that is no decorator to its body; names, values of
quoted texts and parameters are read off the trees that carry them.
-/

namespace Gazetteer.Outline

set_option autoImplicit false

open Syntax (Tree Kind Role)

/-- Whether a tree is a function as a value. -/
def isCallable (t : Tree) : Bool :=
  t.kind = .arrowFunction || t.kind = .functionExpression || t.kind = .generatorFunction

/-- Cut given characters at the end of a text. -/
def trimEnd (c : Char) (s : String) : String := String.ofList (Text.trimEnd (· = c) s.toList)

/-- Cut given characters at the front of a text. -/
def trimStart (c : Char) (s : String) : String := String.ofList (Text.trimStart (· = c) s.toList)

/-- The trees in front of the body. -/
def beforeBody (ts : List Tree) : List Tree := ts.takeWhile fun t => t.label.role != some .body

/-- The text of a declaration from its first token that is neither comment nor decorator to its body. -/
def headText (t : Tree) : String :=
  match t with
  | .leaf _ _ text => Text.collapse (trimEnd ';' text)
  | .node _ ts =>
      let ts := ts.dropWhile fun c => c.kind = .decorator || c.kind = .comment
      Text.collapse (trimEnd ';' (Tree.texts (beforeBody ts)))

/-- Whether a quotation mark. -/
def isQuote (c : Char) : Bool := c = '"' || c = '\x27' || c = '\x60'

/-- A text without the quotation marks at its ends, if it has both. -/
def unquoted (s : String) : String :=
  match s.toList with
  | c :: cs =>
      match cs.getLast? with
      | some d => if isQuote c && isQuote d then String.ofList cs.dropLast else s
      | none => s
  | [] => s

/-- Cut all single and double quotation marks at the ends of a text. -/
def withoutQuotes (s : String) : String :=
  String.ofList (Text.trim (fun c => c = '"' || c = '\x27') s.toList)

/-- The value of a quoted text, or of a template without substitutions. -/
def stringValue? (t : Tree) : Option String :=
  match t.kind with
  | .string => some (unquoted t.text)
  | .templateString =>
      if t.children.any fun c => c.kind = .templateSubstitution then none
      else some (unquoted t.text)
  | _ => none

/-- The type behind its colon. -/
def typeText (clause : Tree) : String :=
  Text.collapse (Text.strip (trimStart ':' clause.text))

/-- A formal parameter. -/
def parameter? (t : Tree) : Option Parameter :=
  match t.kind with
  | .requiredParameter | .optionalParameter =>
      (t.child? .pattern).map fun pattern =>
        ⟨Text.collapse pattern.text, (t.child? .type).map typeText,
          t.kind = .optionalParameter || (t.child? .value).isSome⟩
  | .assignmentPattern =>
      (t.child? .left).map fun left => ⟨Text.collapse left.text, none, true⟩
  | .identifier | .restPattern | .objectPattern | .arrayPattern =>
      some ⟨Text.collapse t.text, none, false⟩
  | _ => none

/-- The parameters of a function. -/
def parameters (callable : Tree) : List Parameter :=
  match callable.child? .parameter with
  | some single => [⟨single.text, none, false⟩]
  | none =>
      match callable.child? .parameters with
      | some list => list.namedChildren.filterMap parameter?
      | none => []

/-- The declared type of the result of a function. -/
def returnType? (callable : Tree) : Option String :=
  ((callable.child? .returnType).map typeText).filter fun t => !t.isEmpty

end Gazetteer.Outline

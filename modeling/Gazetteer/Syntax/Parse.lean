import Gazetteer.Syntax.Grammar.Markup
import Gazetteer.Syntax.Grammar.Statement

/-!
# Reading source text

`Syntax.parse` reads a source text as a program.  Text that is no program gives a tree with an error at the
first place where nothing that could continue the program was found.
-/

namespace Gazetteer.Syntax

set_option autoImplicit false

open Rule

/-- The rule of every phrase. -/
def grammar (d : Dialect) : Phrase → Rule
  | .statement => Grammar.anyStatement d
  | .declaration => Grammar.declaration d
  | .block => Grammar.blockOf
  | .expression ends => Grammar.expression d ends
  | .expressions ends => Grammar.expressions d ends
  | .unary ends => Grammar.unary d ends
  | .chain ends => Grammar.chain d ends
  | .primary ends => Grammar.primary d ends
  | .arrow ends => Grammar.arrow d ends
  | .newExpression => Grammar.newExpression d
  | .parenthesized => Grammar.parenthesized d
  | .object => Grammar.object d
  | .array => Grammar.array
  | .arguments => Grammar.arguments
  | .template => Grammar.template
  | .classExpression => Grammar.classExpression
  | .classTail => Grammar.classTail d
  | .classBody => Grammar.classBody
  | .classMember =>
      if d.isTyped then Grammar.typedMember d (Grammar.indexSignature true)
      else Grammar.plainMember d
  | .pattern => Grammar.pattern
  | .destructuring => Grammar.destructuring
  | .assignmentPattern => Grammar.assignmentPattern
  | .parameters => Grammar.parameters d
  | .signature ends => Grammar.signature d ends
  | .declarator => Grammar.declarator d
  | .decorators => Grammar.decorators d
  | .type ends => Grammar.type d ends
  | .typeUnion ends => Grammar.typeUnion d ends
  | .typeOperand ends => Grammar.typeOperand ends
  | .typePrimary ends => Grammar.typePrimary d ends
  | .typeArguments => Grammar.typeArguments
  | .typeParameters => Grammar.typeParameters
  | .typeClause ends => Grammar.typeClause ends
  | .returnClause ends => Grammar.returnClause ends
  | .objectType => Grammar.objectType d
  | .markup => Grammar.markup d
  | .tagAttribute => Grammar.tagAttribute

/-- A whole program: a line that names its interpreter, statements, and nothing else. -/
def program : Rule :=
  all [opt (.rawToken .other Scanner.interpreterLine), .many (.phrase .statement), .markupComments,
    .token .word fun cs => if cs.isEmpty then some 0 else none]

/-- The text without a byte-order mark at its front. -/
def withoutMark : List Char → List Char
  | '\uFEFF' :: cs => cs
  | cs => cs

/-- A tree for a text that is no program: an error on the line where reading stopped, but no further than the
last line that is not blank. -/
def errorTree (cs : List Char) (p : Progress) : Tree :=
  let row := min p.row ((Text.trimEnd Scanner.isGap cs).count '\n')
  .node { kind := .program, row := 0, flagged := true }
    [.leaf { kind := .error, row, faulty := true, flagged := true } "" ""]

/-- Read a source text as a program. -/
def parse (d : Dialect) (source : String) : Tree :=
  let cs := withoutMark source.toList
  -- rules nest some forty deep for each bracket, and brackets no deeper than the text is long
  let fuel := 200 * (cs.length + 10)
  let (m, progress) := (program.run (grammar d) fuel none ⟨cs, 0, 0⟩).run {}
  match m with
  | some (ts, _) => .node { kind := .program, row := 0 } ts
  | none => errorTree cs progress

end Gazetteer.Syntax

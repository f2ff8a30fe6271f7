import Gazetteer.Syntax.Grammar.Expression

/-!
# Markup within expressions
-/

namespace Gazetteer.Syntax.Grammar

set_option autoImplicit false

open Rule

/-- A name in a tag, maybe of two parts with a colon between them. -/
def tagPart : Rule :=
  let name : Rule := .token .identifier Scanner.tagName
  any [group [name, mark ":", name], name]

/-- The name of an element. -/
def elementName : Rule :=
  .grow tagPart (.wrap anyKind .memberExpression (some .object) (all [point, memberName]))

/-- An expression in braces. -/
def embedded : Rule :=
  group [mark "\x7b", opt (any [group [mark "...", inner], .phrase (.expressions false)]),
    mark "\x7d"]

/-- An attribute of an element. -/
def tagAttribute : Rule :=
  any [embedded, group [tagPart, opt (all [mark "=", any
    [.token .string Scanner.attributeText, embedded, .phrase .markup]])]]

/-- The inside of an opening tag. -/
def tagFront (d : Dialect) : Rule :=
  all [.role .name elementName, optTyped d (.phrase .typeArguments), .many (.phrase .tagAttribute)]

/-- An element with its content, or a fragment. -/
def markup (d : Dialect) : Rule :=
  let child : Rule := any [.rawToken .other Scanner.markupText, .token .other Scanner.entity,
    .phrase .markup, embedded]
  any
    [.node .jsxSelfClosingElement (all [mark "<", tagFront d, mark "/", mark ">"]),
      group [.node .jsxOpeningElement (all [mark "<", opt (tagFront d), mark ">"]), .many child,
        group [mark "<", mark "/", opt elementName, mark ">"]]]

end Gazetteer.Syntax.Grammar

import Gazetteer.Syntax.Grammar.Expression

/-!
# Types
-/

namespace Gazetteer.Syntax.Grammar

set_option autoImplicit false

open Rule

/-- Words that start a type of their own and so are no type names. -/
def typeWords : List String :=
  ["typeof", "keyof", "infer", "new", "import"]

/-- A type, which may depend on a test of another. -/
def type (d : Dialect) (ends : Bool) : Rule :=
  .grow (.phrase (.typeUnion ends)) (wrapOther (all [goesOnPlainly d ends, word "extends",
    .phrase (.typeUnion false), mark "?", .phrase (.type false), mark ":",
    .phrase (.type ends)]))

/-- Types joined by bars and ampersands. -/
def typeUnion (d : Dialect) (ends : Bool) : Rule :=
  let bar : Rule := .token .word (Scanner.operatorOf ["|", "&"])
  let joined : Rule := .grow (.phrase (.typeOperand ends))
    (wrapOther (all [goesOnPlainly d ends, bar, .phrase (.typeOperand ends)]))
  any [group [bar, joined], joined]

/-- What a function says of its result: a type, or what it makes sure of. -/
def resultType (ends : Bool) : Rule :=
  let subject : Rule := any [.token .other (Scanner.word "this"), anyName]
  let claim : Rule := group [subject, word "is", .phrase (.type ends)]
  any [group [word "asserts", any [claim, subject]], claim,
    .phrase (.type ends)]

/-- A type with a prefix operator, or a function type. -/
def typeOperand (ends : Bool) : Rule :=
  let arrowTail : Rule := all [.phrase .parameters, operator ["=>"], resultType ends]
  any
    [group [opt (.phrase .typeParameters), arrowTail],
      group [opt (word "abstract"), word "new", opt (.phrase .typeParameters), arrowTail],
      group [any [word "readonly", word "keyof"], .phrase (.typeOperand ends)],
      group [word "unique", word "symbol"],
      group [word "infer", anyName, opt (all [word "extends", .phrase (.type ends)])],
      .phrase (.typePrimary ends)]

/-- Names joined by points. -/
def dotted (first : Rule) : Rule :=
  .grow first (wrapOther (all [point, memberName]))

/-- A call of `import` within a type. -/
def importType : Rule :=
  .node .callExpression (all [.role .callee (.token .importCallee (Scanner.word "import")),
    callArguments])

/-- A type without operators, and its members and arrays. -/
def typePrimary (d : Dialect) (ends : Bool) : Rule :=
  let go := goesOnPlainly d ends
  let queryBase : Rule := any [importType, .token .other (Scanner.word "this"), anyName]
  let query : Rule := group [word "typeof",
    .grow queryBase (any
      [wrapOther (all [point, memberName]),
        wrapOther (all [go, mark "[", any [stringLiteral, .token .other Scanner.number], mark "]"]),
        wrapOther (all [go, .phrase .typeArguments])])]
  let tupleName : Rule := any [group [mark "...", anyName], anyName]
  let tupleItem : Rule := any
    [group [tupleName, opt (mark "?"), .phrase (.typeClause false)],
      group [mark "...", .phrase (.type false)],
      group [.phrase (.type false), opt (mark "?")]]
  let templateType : Rule := .node .other (all [mark "`", .many (any
    [.rawToken .other Scanner.templateChars,
      group [.rawToken .word (Scanner.exactly "$\x7b"), .phrase (.type false), mark "\x7d"]]),
    .rawToken .word (Scanner.exactly "`")])
  let named : Rule := group [dotted (nameBut typeWords),
    opt (all [go, .phrase .typeArguments])]
  let base : Rule := any
    [group [mark "(", .phrase (.type false), mark ")"],
      .phrase .objectType,
      group [mark "[", opt (commas tupleItem), opt (mark ","), mark "]"],
      query,
      group [dotted importType, opt (.phrase .typeArguments)],
      stringLiteral, .token .other Scanner.number,
      group [operator ["-", "+"], .token .other Scanner.number],
      templateType, named, mark "*", group [mark "?", .phrase (.typePrimary ends)]]
  .grow base (any
    [wrapOther (all [go, mark "[", mark "]"]),
      wrapOther (all [go, mark "[", .phrase (.type false), mark "]"])])

/-- Arguments of a generic type. -/
def typeArguments : Rule :=
  group [mark "<", commas (.phrase (.type false)), opt (mark ","), mark ">"]

/-- Parameters of a generic declaration. -/
def typeParameters : Rule :=
  let parameter : Rule := group [opt (all [word "const", .ahead anyName]),
    opt (all [any [word "in", word "out"], .ahead anyName]), anyName,
    opt (all [any [word "extends", mark ":"], .phrase (.type false)]),
    opt (all [equals, .phrase (.type false)])]
  group [mark "<", commas parameter, opt (mark ","), mark ">"]

/-- A type behind a colon. -/
def typeClause (ends : Bool) : Rule := group [mark ":", .phrase (.type ends)]

/-- The result of a function behind a colon. -/
def returnClause (ends : Bool) : Rule := group [mark ":", resultType ends]

/-- A member with a computed name of any type. -/
def indexSignature (ends : Bool) : Rule :=
  let sign : Rule := opt (operator ["-", "+"])
  let mapped : Rule := group [anyName, word "in", .phrase (.type false),
    opt (all [word "as", .phrase (.type false)])]
  group [opt (all [sign, word "readonly", .ahead (mark "[")]), mark "[",
    any [mapped, all [anyName, mark ":", .phrase (.type false)]], mark "]",
    any [.phrase (.typeClause ends),
      group [any [mark "-?:", mark "+?:", mark "?:"], .phrase (.type ends)]]]

/-- A member of an interface or an object type. -/
def typeMember (d : Dialect) : Rule :=
  let m (w : String) : Rule := modifier d true w
  let front : Rule := all [opt (any [m "public", m "private", m "protected"]),
    opt (m "static"), opt (m "override"), opt (m "readonly")]
  any
    [group [.phrase (.signature true)],
      group [opt (word "abstract"), word "new", opt (.phrase .typeParameters), .phrase .parameters,
        opt (.phrase (.typeClause true))],
      indexSignature true,
      .node .methodSignature (all [front, opt (m "async"),
        opt (any [m "get", m "set", mark "*"]), methodName d true (opt (mark "?")),
        .phrase (.signature true)]),
      group [front, .role .name propertyName, opt (mark "?"),
        opt (.role .type (.phrase (.typeClause true)))]]

/-- The members of an interface or an object type. -/
def objectType (d : Dialect) : Rule :=
  let separator : Rule := any [mark ",", semicolon d]
  let members : Rule := all [opt (any [mark ",", mark ";"]), separated separator (typeMember d),
    opt separator]
  any [group [mark "\x7b|", opt members, mark "|\x7d"],
    group [mark "\x7b", opt members, mark "\x7d"]]

end Gazetteer.Syntax.Grammar

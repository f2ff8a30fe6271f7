import Gazetteer.Syntax.Grammar.Basic

/-!
# Expressions and patterns
-/

namespace Gazetteer.Syntax.Grammar

set_option autoImplicit false

open Rule

/-- Words that are no names where an operand is expected. -/
def operandWords : List String :=
  ["function", "class", "new", "typeof", "void", "delete", "await", "yield", "this", "super", "true",
    "false", "null", "undefined", "import"]

/-- Words that start a statement and so no expression in its place. -/
def statementWords (d : Dialect) : List String :=
  ["if", "for", "while", "do", "switch", "try", "with", "break", "continue", "return", "throw",
    "debugger", "var", "const"] ++ if d.isTyped then ["enum", "interface", "abstract"] else []

/-- No brace in front of a word that starts a statement or an operand: where a block may stand, such a brace
opens a block and no object. -/
def noBlockAhead (d : Dialect) : Rule :=
  .absent (all [mark "\x7b", any ((statementWords d ++ operandWords).map word)])

/-- Words that stand for a value. -/
def valueWords : List String := ["this", "super", "true", "false", "null", "undefined"]

/-- Operators between two operands. -/
def binaryOperators : List String :=
  ["&&", "||", ">>", ">>>", "<<", "&", "^", "|", "+", "-", "*", "/", "%", "**", "<", "<=", "==",
    "===", "!=", "!==", ">=", ">", "??"]

/-- Operators that change what is to their left. -/
def updateOperators : List String :=
  ["+=", "-=", "*=", "/=", "%=", "^=", "&=", "|=", ">>=", ">>>=", "<<=", "**=", "&&=", "||=", "??="]

/-- The question mark of a choice between two values. -/
def choiceMark (d : Dialect) : Scanner
  | '?' :: cs =>
      match cs with
      | '?' :: _ => none
      | '.' :: rest =>
          if !d.isTyped && (rest.head?.map Scanner.isDigit).getD false then some 1 else none
      | cs =>
          if !d.isTyped then some 1
          else
            match cs.dropWhile Semicolon.isBlank with
            | '.' :: rest => if (rest.head?.map Scanner.isDigit).getD false then some 1 else none
            | c :: _ => if c = ':' || c = ')' || c = ',' then none else some 1
            | [] => some 1
  | _ => none

/-- Words that name the one operator between operands that is a word. -/
def relationWords : Rule := any [word "instanceof", word "in"]

/-- An expression without commas. -/
def expression (d : Dialect) (ends : Bool) : Rule :=
  let go := goesOn d ends
  let right : Rule := .role .right (.phrase (.expression ends))
  let isOperand (k : Kind) : Bool := k != .assignmentExpression
  let steps : List Rule :=
    [.wrap isTarget .assignmentExpression (some .left) (all [go, equals, right]),
      .wrap (fun k => k = .parenthesizedExpression) .assignmentExpression (some .left)
        (all [go, equals, right]),
      .wrap (fun k => isTarget k || k = .parenthesizedExpression) .other none
        (all [go, operator updateOperators, .phrase (.expression ends)]),
      .wrap isOperand .other none (all [go, .token .word (choiceMark d),
        any [all [inner, mark ":"], all [.phrase .parenthesized, mark ":"]],
        .phrase (.expression ends)]),
      .wrap isOperand .other none (all [go, operator binaryOperators, .phrase (.unary ends)]),
      .wrap isOperand .other none (all [go, relationWords, .phrase (.unary ends)]),
      typed d (.wrap isOperand .other none (all [go, word "as",
        any [word "const", .phrase (.type ends)]])),
      typed d (.wrap isOperand .other none (all [go, word "satisfies", .phrase (.type ends)]))]
  any
    [group [word "yield", any [all [mark "*", .phrase (.expression ends)],
        opt (all [go, .phrase (.expression ends)])]],
      .node .assignmentExpression (all [word "using",
        .role .left (.only isTarget (.phrase (.chain false))), equals, right]),
      .grow (.phrase (.unary ends)) (any steps)]

/-- An expression, or several separated by commas. -/
def expressions (d : Dialect) (ends : Bool) : Rule :=
  .grow (.phrase (.expression ends))
    (wrapOther (all [goesOn d ends, mark ",", .phrase (.expression ends)]))

/-- An operand behind prefix operators and before postfix operators. -/
def unary (d : Dialect) (ends : Bool) : Rule :=
  let operand : Rule := .phrase (.unary ends)
  let prefixes : List Rule :=
    [group [operator ["!", "~", "-", "+", "++", "--"], operand],
      group [any [word "typeof", word "void", word "delete"], operand],
      .node .awaitExpression (all [word "await", operand])]
  let casts : List Rule :=
    if d = .typeScript then
      [.phrase (.arrow ends), group [.phrase .typeArguments, operand]]
    else []
  any (prefixes ++ casts ++
    [.grow (.phrase (.chain ends)) (wrapOther (all [goesOn d ends, operator ["++", "--"]]))])

/-- Whether type arguments end an expression, that is, whether no operand follows them. -/
def noOperandAhead (d : Dialect) (cs : List Char) : Bool :=
  Semicolon.endsSoon d true cs.length.succ cs ||
    match cs.dropWhile Scanner.isGap with
    | [] => true
    | c :: _ => ")],;:\x7d=?&|.!".toList.contains c

/-- A member behind a point. -/
def memberName : Rule :=
  .role .property (any [.token .other Scanner.privateName, .token .propertyIdentifier Scanner.name])

/-- A point that starts no number and no spread. -/
def point : Rule := .token .word (Scanner.exactlyBut "." ['.'])

/-- The point of an optional member. -/
def optionalPoint : Rule := .token .word (Scanner.exactlyBut "?." "0123456789".toList)

/-- The arguments of a call. -/
def callArguments : Rule := .role .arguments (.phrase .arguments)

/-- Steps from an operand to one of its members. -/
def memberSteps (go : Rule) : List Rule :=
  [.wrap anyKind .memberExpression (some .object) (all [go, point, memberName]),
    .wrap anyKind .subscriptExpression (some .object)
      (all [go, mark "[", .phrase (.expressions false), mark "]"])]

/-- An operand with calls and member accesses. -/
def chain (d : Dialect) (ends : Bool) : Rule :=
  let go := goesOn d ends
  let typeArguments : Rule := .phrase .typeArguments
  let call (as : List Rule) : Rule :=
    .wrap anyKind .callExpression (some .callee) (all (go :: as))
  .grow (.phrase (.primary ends)) (any (memberSteps go ++
    [.wrap anyKind .memberExpression (some .object) (all [go, optionalPoint, memberName]),
      .wrap anyKind .subscriptExpression (some .object) (all [go, optionalPoint, mark "[",
        .phrase (.expressions false), mark "]"]),
      call [optionalPoint, optTyped d typeArguments, callArguments],
      call [callArguments],
      call [.role .arguments (.phrase .template)],
      typed d (call [typeArguments, any [callArguments, .role .arguments (.phrase .template)]]),
      typed d (.wrap anyKind .nonNullExpression none (all [go, operator ["!"]])),
      typed d (wrapOther (all [go, typeArguments, .test (noOperandAhead d)]))]))

/-- A list of arguments. -/
def arguments : Rule :=
  group [mark "(", loosely (any [group [mark "...", inner], inner]), mark ")"]

/-- A construction of an object. -/
def newExpression (d : Dialect) : Rule :=
  let callee : Rule := .grow (.phrase (.primary false)) (any (memberSteps .nothing ++
    [typed d (.wrap anyKind .nonNullExpression none (operator ["!"]))]))
  any
    [group [word "new", point, word "target"],
      .node .newExpression (all [word "new",
        .role .constructor callee,
        optTyped d (.phrase .typeArguments),
        opt callArguments])]

/-- A template with substitutions. -/
def template : Rule :=
  .node .templateString (all [mark "`", .many (any
    [.rawToken .other Scanner.templateChars, .rawToken .other Scanner.escape,
      .node .templateSubstitution (all [.rawToken .word (Scanner.exactly "$\x7b"),
        .phrase (.expressions false), mark "\x7d"])]),
    .rawToken .word (Scanner.exactly "`")])

/-- A function with an arrow. -/
def arrow (d : Dialect) (ends : Bool) : Rule :=
  let front : Rule := any [.role .parameter (nameBut operandWords), .phrase (.signature false)]
  let body : Rule := .role .body (any [block, all [noBlockAhead d, .phrase (.expression ends)]])
  .node .arrowFunction (any
    [all [word "async", goesOn d ends, front, operator ["=>"], body],
      all [front, operator ["=>"], body]])

/-- A function as a value. -/
def functionExpression : Rule :=
  let tail : Rule := all [opt (.role .name anyName), .phrase (.signature false), .role .body block]
  any
    [.node .generatorFunction (all [opt (word "async"), word "function", mark "*", tail]),
      .node .functionExpression (all [opt (word "async"), word "function", tail])]

/-- An expression in parentheses. -/
def parenthesized (d : Dialect) : Rule :=
  .node .parenthesizedExpression (all [mark "(", .phrase (.expressions false),
    optTyped d (.phrase (.typeClause false)), mark ")"])

/-- What an operand starts with. -/
def primary (d : Dialect) (ends : Bool) : Rule :=
  any
    ([.phrase (.arrow ends), functionExpression, .phrase .classExpression, .phrase .newExpression,
      stringLiteral, .phrase .template, .token .other Scanner.number, .phrase .parenthesized,
      all [.phrase .destructuring, .ahead equals],
      .phrase .object, .phrase .array] ++
    valueWords.map (fun w => .token .other (Scanner.word w)) ++
    [group [word "import", point, word "meta"],
      all [.token .importCallee (Scanner.word "import"),
        .ahead (any [mark "(", mark "."])],
      .token .other Scanner.regex,
      all [.token .other Scanner.privateName, .ahead (word "in")],
      nameBut operandWords] ++
    (if d.hasTags then [.phrase .markup] else []))

/-- The name of a method. In a class it is the name of a field if a field may end behind it. -/
def methodName (d : Dialect) (inClass : Bool) (optional : Rule) : Rule :=
  all [.role .name propertyName, optional, goesOnPlainly d inClass]

/-- A method of an object or a class, behind its modifiers. -/
def methodRest (d : Dialect) (inClass : Bool) : Rule :=
  all [methodName d inClass (optTyped d (mark "?")), .phrase (.signature false),
    .role .body block]

/-- Markers of an asynchronous method, an accessor or a generator. -/
def methodMarks (d : Dialect) (inClass : Bool) : Rule :=
  all [opt (modifierOrStar d inClass "async"),
    opt (any [modifier d inClass "get", modifier d inClass "set", mark "*"])]

/-- An object. -/
def object (d : Dialect) : Rule :=
  .node .object (all [mark "\x7b", loosely (any
    [group [mark "...", inner],
      .node .pair (all [.role .key propertyName, mark ":", .role .value inner]),
      .node .methodDefinition (all [methodMarks d false, methodRest d false]),
      .token .shorthandProperty Scanner.name]), mark "\x7d"])

/-- An array. -/
def array : Rule :=
  .node .array (all [mark "[", loosely (any [group [mark "...", inner], inner]), mark "]"])

/-- A pattern that takes an object or an array apart. -/
def destructuring : Rule :=
  let value : Rule := any [.phrase .assignmentPattern, .phrase .pattern]
  let rest : Rule := .node .restPattern (all [mark "...", .phrase .pattern])
  let shorthand : Rule := .token .other Scanner.name
  any
    [.node .objectPattern (all [mark "\x7b", loosely (any
      [rest, group [.role .key propertyName, mark ":", .role .value value],
        group [any [shorthand, .phrase .destructuring], equals, inner],
        shorthand]), mark "\x7d"]),
      .node .arrayPattern (all [mark "[", loosely value, mark "]"])]

/-- What a value can be bound or assigned to. -/
def pattern : Rule :=
  let target : Rule := any
    [.only isTarget (.phrase (.chain false)), .phrase .destructuring]
  any [.node .restPattern (all [mark "...", target]), target]

/-- A pattern with a value for what is missing. -/
def assignmentPattern : Rule :=
  .node .assignmentPattern (all [.role .left (.phrase .pattern), equals, .role .right inner])

/-- The parameters of a function. -/
def parameters (d : Dialect) : Rule :=
  let accessibility : Rule := any [word "public", word "private", word "protected"]
  let behind (a : Rule) : Rule := all [a, .ahead (any [anyName, mark "\x7b", mark "[", mark "..."])]
  let front : Rule := all [.phrase .decorators, opt (behind accessibility),
    opt (behind (word "override")), opt (behind (word "readonly")),
    .role .pattern (any [.phrase .pattern, .token .other (Scanner.word "this")])]
  let tail : Rule := all [opt (.role .type (.phrase (.typeClause false))),
    opt (all [equals, .role .value inner])]
  let parameter : Rule :=
    if d.isTyped then
      any [.node .optionalParameter (all [front, mark "?", tail]),
        .node .requiredParameter (all [front, tail])]
    else any [.phrase .assignmentPattern, .phrase .pattern]
  group [mark "(", listed parameter, mark ")"]

/-- Parameters, with type parameters and a return type in typed source. -/
def signature (d : Dialect) (ends : Bool) : Rule :=
  if d.isTyped then
    all [opt (.phrase .typeParameters), .role .parameters (.phrase .parameters),
      opt (.role .returnType (.phrase (.returnClause ends)))]
  else .role .parameters (.phrase .parameters)

/-- Decorators in front of a declaration. -/
def decorators (d : Dialect) : Rule :=
  let member : Rule := .grow anyName
    (.wrap anyKind .memberExpression (some .object) (all [point, memberName]))
  let call : Rule := .grow member (.wrap (fun k => k != .callExpression) .callExpression
    (some .callee) (all [optTyped d (.phrase .typeArguments), callArguments]))
  .many (.node .decorator (all [mark "@", any
    ([call] ++ (if d.isTyped then
      [.node .parenthesizedExpression (all [mark "(", call, mark ")"])] else []))]))

/-- What extends a class, and in typed source what it implements. -/
def heritage (d : Dialect) : Rule :=
  let base : Rule := .phrase (.chain false)
  if d.isTyped then
    let extended : Rule := group [word "extends",
      commas (all [.role .value base, opt (.phrase .typeArguments)])]
    let implemented : Rule := group [word "implements", commas (.phrase (.type false))]
    .node .classHeritage (any [all [extended, opt implemented], implemented])
  else .node .classHeritage (all [word "extends", base])

/-- What follows the name of a class. -/
def classTail (d : Dialect) : Rule :=
  all [optTyped d (.phrase .typeParameters), opt (heritage d), .role .body (.phrase .classBody)]

/-- A class as a value. -/
def classExpression : Rule :=
  .node .classExpression (all [.phrase .decorators, word "class",
    opt (.role .name (nameBut ["extends", "implements"])), .phrase .classTail])

/-- The members of a class. -/
def classBody : Rule := group [mark "\x7b", .many (.phrase .classMember), mark "\x7d"]

/-- The value of a field or a variable. -/
def initializer (ends : Bool) : Rule :=
  all [equals, .role .value (.phrase (.expression ends))]

/-- A block that runs when a class is made. -/
def staticBlock : Rule := group [word "static", .role .body block]

/-- A member of a class in plain source. -/
def plainMember (d : Dialect) : Rule :=
  any
    [mark ";", staticBlock,
      all [.node .methodDefinition (all [.phrase .decorators, opt (modifierOrStar d true "static"),
        methodMarks d true, methodRest d true]), opt (mark ";")],
      all [.node .fieldDefinition (all [.phrase .decorators, opt (modifier d true "static"),
        .role .property propertyName, opt (initializer true)]), semicolon d]]

/-- Who may use a member. -/
def accessibility (d : Dialect) : Rule :=
  any [modifier d true "public", modifier d true "private", modifier d true "protected"]

/-- A member of a class in typed source. -/
def typedMember (d : Dialect) (indexSignature : Rule) : Rule :=
  let m (w : String) : Rule := modifier d true w
  let beforeStar (w : String) : Rule := modifierOrStar d true w
  let reach : Rule := any
    [beforeStar "public", beforeStar "private", beforeStar "protected"]
  let front : Rule := all [opt reach, opt (beforeStar "static"), opt (beforeStar "override"),
    opt (beforeStar "readonly")]
  let method : Rule := .node .methodDefinition (all [front, methodMarks d true, methodRest d true])
  let abstractMethod : Rule := .node .abstractMethodSignature (all [opt (accessibility d),
    word "abstract", opt (m "override"), opt (any [m "get", m "set", mark "*"]),
    methodName d true (opt (mark "?")), .phrase (.signature true)])
  let methodSignature : Rule := .node .methodSignature (all [front, methodMarks d true,
    methodName d true (opt (mark "?")), .phrase (.signature true)])
  let field : Rule := .node .publicFieldDefinition (all [.phrase .decorators,
    opt (any [all [m "declare", opt (accessibility d)], all [accessibility d, opt (m "declare")]]),
    any [all [m "abstract", opt (m "readonly")], all [m "readonly", m "abstract"], m "accessor",
      all [opt (m "static"), opt (m "override"), opt (m "readonly")]],
    .role .name propertyName, opt (any [mark "?", operator ["!"]]),
    opt (.role .type (.phrase (.typeClause true))), opt (initializer true)])
  any
    [mark ";", staticBlock,
      all [.phrase .decorators, method, opt (semicolon d)],
      all [any [abstractMethod, indexSignature, methodSignature, field],
        any [mark ",", semicolon d]]]

end Gazetteer.Syntax.Grammar

import Gazetteer.Syntax.Grammar.Type

/-!
# Statements and declarations
-/

namespace Gazetteer.Syntax.Grammar

set_option autoImplicit false

open Rule

/-- Words that start a statement or a further part of one. -/
def leadingWords (d : Dialect) : List String :=
  statementWords d ++ ["else", "case", "default", "catch", "finally"]

/-- A statement. -/
def statement : Rule := .phrase .statement

/-- A declared variable, or an object or array that is taken apart. -/
def boundName : Rule := any [.phrase .destructuring, anyName]

/-- A variable with its type and value. -/
def declarator (d : Dialect) : Rule :=
  .node .variableDeclarator (any
    [all [.role .name boundName, optTyped d (.role .type (.phrase (.typeClause true))),
        opt (initializer true), .absent (typed d (all [operator ["!"], mark ":"]))],
      typed d (all [.role .name anyName, operator ["!"],
        .role .type (.phrase (.typeClause true))])])

/-- The declaration of variables. -/
def variableList (d : Dialect) : Rule :=
  let rest : Rule := all [commas (.phrase .declarator), semicolon d]
  any
    [.node .variableDeclaration (all [word "var", rest]),
      .node .lexicalDeclaration (all [any [leadWord d "let", word "const"], rest])]

/-- A named function. -/
def functionDeclaration (d : Dialect) : Rule :=
  let front : Rule := all [opt (leadWord d "async"), word "function"]
  let tail : Rule := all [.role .name anyName, .phrase (.signature false), .role .body block]
  any
    [.node .generatorFunctionDeclaration (all [front, mark "*", tail]),
      .node .functionDeclaration (all [front, tail]),
      typed d (.node .functionSignature (all [front, .role .name anyName,
        .phrase (.signature true), semicolon d]))]

/-- A named class. -/
def classDeclaration (d : Dialect) : Rule :=
  let tail : Rule := all [word "class", .role .name (nameBut ["extends", "implements"]),
    .phrase .classTail]
  any
    [.node .classDeclaration (all [.phrase .decorators, tail]),
      typed d (.node .abstractClassDeclaration (all [.phrase .decorators, word "abstract", tail]))]

/-- A declaration that only typed source has. -/
def typedDeclaration (d : Dialect) : Rule :=
  let typeParameters : Rule := opt (.phrase .typeParameters)
  let moduleName : Rule := any [stringLiteral, dotted anyName]
  let enumMember : Rule := group [.role .name propertyName, opt (initializer false)]
  let base : Rule := group [dotted anyName, opt (.phrase .typeArguments)]
  any
    [.node .enumDeclaration (all [opt (word "const"), word "enum", .role .name anyName,
        .role .body (group [mark "\x7b", listed enumMember, mark "\x7d"])]),
      .node .interfaceDeclaration (all [word "interface", .role .name anyName, typeParameters,
        opt (group [word "extends", commas base]), .role .body (.phrase .objectType)]),
      .node .typeAliasDeclaration (all [leadWord d "type", .role .name anyName, typeParameters,
        equals, .role .value (.phrase (.type true)), semicolon d]),
      group [any [leadWord d "module", leadWord d "namespace"], .role .name moduleName,
        any [.role .body block, .absent (mark "\x7b")]],
      group [word "import", anyName, equals, dotted anyName, semicolon d],
      .node .ambientDeclaration (all [leadWord d "declare", any
        [.phrase .declaration, all [word "global", block],
          all [word "module", point, anyName, mark ":", .phrase (.type true), semicolon d]]])]

/-- A declaration. -/
def declaration (d : Dialect) : Rule :=
  any ((if d.isTyped then [typedDeclaration d] else []) ++
    [functionDeclaration d, classDeclaration d, variableList d])

/-- A name of a module's export, which may be quoted. -/
def exportName : Rule := any [stringLiteral, anyName]

/-- The module a statement names. -/
def fromClause : Rule := all [word "from", .role .source stringLiteral]

/-- Exported names in braces. -/
def exportClause (d : Dialect) : Rule :=
  let plain : Rule := all [.role .name exportName,
    opt (all [word "as", .role .alias exportName])]
  let specifier : Rule := .node .exportSpecifier (any
    ((if d.isTyped then
      [all [any [word "type", word "typeof"], plain, .ahead (any [mark ",", mark "\x7d"])]]
      else []) ++ [plain]))
  .node .exportClause (all [mark "\x7b", listed specifier, mark "\x7d"])

/-- An export. -/
def exportStatement (d : Dialect) : Rule :=
  let star : Rule := .node .namespaceExport (all [mark "*", word "as", exportName])
  let finish : Rule := semicolon d
  let lead : Rule := leadWord d "export"
  .node .exportStatement (any
    [all [lead, any
        [all [star, fromClause], all [mark "*", fromClause],
          all [exportClause d, fromClause], exportClause d], finish],
      typed d (all [lead, word "type", exportClause d, opt fromClause, finish]),
      typed d (all [lead, group [word "import", anyName, equals, dotted anyName, finish]]),
      typed d (all [lead, equals, inner, finish]),
      typed d (all [lead, word "as", word "namespace", anyName, finish]),
      all [.phrase .decorators, lead, any
        [all [word "default", any
            [.role .declaration (.phrase .declaration),
              all [.role .value (.phrase (.expression true)), finish]]],
          .role .declaration (.phrase .declaration)]]])

/-- An import. -/
def importStatement (d : Dialect) : Rule :=
  let specifierName : Rule := any
    [all [.role .name exportName, word "as", .role .alias anyName], .role .name anyName]
  let behind (w : String) (a : Rule) : Rule := all [word w, a]
  let specifier : Rule := .node .importSpecifier (any
    ((if d.isTyped then
      [all [any [behind "type" specifierName, behind "typeof" specifierName],
        .ahead (any [mark ",", mark "\x7d"])]] else []) ++ [specifierName]))
  let whole : Rule := group [mark "*", word "as", anyName]
  let named : Rule := group [mark "\x7b", listed specifier, mark "\x7d"]
  let clause : Rule := .node .importClause (any
    [whole, named, all [anyName, opt (all [mark ",", any [whole, named]])]])
  let required : Rule := .node .importRequireClause (all [anyName, equals, word "require",
    mark "(", .role .source stringLiteral, mark ")"])
  let main : Rule := any ([all [clause, fromClause]] ++
    (if d.isTyped then [required] else []) ++ [.role .source stringLiteral])
  let attributes : Rule := opt (group [word "with", .phrase .object])
  .node .importStatement (any
    ((if d.isTyped then
      [all [word "import", any [word "type", word "typeof"], main, attributes, semicolon d]]
      else []) ++ [all [word "import", main, attributes, semicolon d]]))

/-- A loop over the members or the values of something. -/
def forInStatement : Rule :=
  let front : Rule := any
    [all [word "var", boundName, opt (initializer false)],
      all [any [word "let", word "const"], boundName],
      .only isTarget (.phrase (.chain false)), .phrase .destructuring, .phrase .parenthesized]
  group [word "for", opt (word "await"), mark "(", front,
    any [word "in", word "of"], .phrase (.expressions false), mark ")",
    .role .body statement]

/-- A loop with a counter. -/
def forStatement (d : Dialect) : Rule :=
  let part : Rule := opt (.phrase (.expressions false))
  group [word "for", mark "(", any [variableList d, all [part, mark ";"]], part, mark ";", part,
    mark ")", .role .body statement]

/-- A statement that a keyword starts. -/
def keywordStatement (d : Dialect) : Rule :=
  let condition : Rule := .phrase .parenthesized
  let body : Rule := .role .body statement
  let label : Rule := all [goesOnPlainly d true, .role .name anyName]
  let cases : Rule := any
    [group [word "case", .phrase (.expressions false), mark ":", .many statement],
      group [word "default", mark ":", .many statement]]
  let caught : Rule := all [mark "(", boundName, optTyped d (.phrase (.typeClause false)),
    mark ")"]
  any
    [group [word "if", condition, statement, opt (group [word "else", statement])],
      group [word "switch", condition, group [mark "\x7b", .many cases, mark "\x7d"]],
      forInStatement, forStatement d,
      group [word "while", condition, body],
      group [word "do", body, word "while", condition, opt (semicolon d)],
      .node .tryStatement (all [word "try", .role .body block,
        opt (group [word "catch", opt caught, .role .body block]),
        opt (group [word "finally", .role .body block])]),
      group [word "with", condition, body],
      group [any [word "break", word "continue"], opt label, semicolon d],
      group [word "debugger", semicolon d],
      group [word "return",
        opt (all [goesOnPlainly d true, .phrase (.expressions true)]), semicolon d],
      group [word "throw", .phrase (.expressions true), semicolon d]]

/-- An expression as a statement. -/
def expressionStatement (d : Dialect) : Rule :=
  let exports : Rule := all [leadWord d "export", any [mark "*", typed d (word "as")]]
  all [.absent (any ((leadingWords d).map word)), noBlockAhead d, .absent exports,
    .node .expressionStatement (all [.phrase (.expressions true), semicolon d])]

/-- Any statement. -/
def anyStatement (d : Dialect) : Rule :=
  all [.markupComments, any
    [exportStatement d, importStatement d, .phrase .declaration, block, keywordStatement d,
      mark ";",
      group [nameBut (leadingWords d ++ operandWords), mark ":", statement],
      expressionStatement d]]

/-- Statements in braces. -/
def blockOf : Rule := group [mark "\x7b", .many statement, .markupComments, mark "\x7d"]

end Gazetteer.Syntax.Grammar
